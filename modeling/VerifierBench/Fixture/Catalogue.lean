import VerifierBench.Fixture.Basic
import VerifierBench.Loop.Progression

/-! The catalogue of fixtures. Loops are summarised; two programs do not parse and are kept as
malformed. -/
namespace VerifierBench.Fixture
open Script

/-- The second loop runs on a counter of its own; `x` takes a step of two each time. -/
def multipleLoopsParity (limit : UInt64) : Script Unit := do
  let x ← runLoop limit (.whileBelow 1000000 2) 0
  assert "x" .even x
  let iterations ← attempt ((GuardedLoop.whileBelow Int32.maxValue 1).iterations 0)
  let x ← accumulate limit ⟨x, [⟨iterations, 2⟩]⟩
  assert "x" .odd x

def countdownWithCompanion (limit : UInt64) : Script Unit := do
  let iterations ← attempt ((GuardedLoop.whileAbove (-10000000) (-1)).iterations 0)
  let x ← accumulate limit ⟨0, [⟨iterations, -1⟩]⟩
  let y ← accumulate limit ⟨0, [⟨iterations, 2⟩]⟩
  assert "x" (.equals (-10000000)) x
  assert "y" (.equals 20000000) y

/-- Both arms of the branch inside the loop add two. -/
def overflowingOddParity (limit : UInt64) : Script Unit := do
  let iterations ← attempt ((GuardedLoop.whileBelow 100 1).iterations 0)
  let x ← accumulate limit ⟨Int32.maxValue - 100, [⟨iterations, 2⟩]⟩
  assert "x" .odd x

/-- One step of two, then the summary `x = (n - 1) * 2 + x` of the remaining `n = 999999` steps. -/
def transformedEvenParity (limit : UInt64) : Script Unit := do
  let x ← accumulate limit ⟨Int32.maxValue - 1000000, [⟨1, 2⟩]⟩
  let x ← accumulate limit ⟨x, [⟨999998, 2⟩]⟩
  assert "x" .even x

def nondetBoundSaturation (limit : UInt64) : Script Unit := do
  let x ← nondet
  if x < 1000000 then
    let x ← runLoop limit (.whileBelow 1000000 1) x
    assert "x" (.equals 1000000) x
    let x ← runLoop limit (.whileBelow 100000000 1) x
    assert "x" (.notEquals 100000000) x

/-- The net effect of one outer run is 5001 steps up and 5000 steps down. The assertion after each
outer run is made once: on the forbidden value if it is met, else on the last one. -/
def nestedNondetLoop (limit : UInt64) : Script Unit := do
  let x ← nondet
  if x < 1000000 then
    let net ← accumulate limit ⟨0, [⟨5001, 1⟩, ⟨5000, -1⟩]⟩
    let outer := GuardedLoop.whileBelow 1000000 net
    let iterations ← attempt (outer.iterations x)
    let last ← runLoop limit outer x
    let afterEach : Progression := ⟨x, net, iterations⟩
    assert "x" (.notEquals 1000000) (if afterEach.contains 1000000 then 1000000 else last)

def whileBreak (limit : UInt64) : Script Unit := do
  let _ ← runLoop limit { GuardedLoop.whileBelow 5 1 with breakAt := some 4 } 0

def all : List Fixture :=
  [ { name := "multiple_loops_parity"
      description := "x counts to 1000000 in steps of 2, then takes 2^31-1 more steps of 2; " ++
        "asserts x even, then x odd"
      expectation := .errorReachable
      witness := []
      body := .program multipleLoopsParity },
    { name := "countdown_with_companion"
      description := "x counts down to -10000000 while y grows by 2 per step"
      expectation := .safe
      witness := []
      body := .program countdownWithCompanion },
    { name := "overflowing_odd_parity"
      description := "x = INT_MAX - 100 takes 100 steps of 2 through the overflow; asserts x odd"
      expectation := .safe
      witness := []
      body := .program overflowingOddParity },
    { name := "transformed_even_parity"
      description := "hand-summarised loop x = (n - 1) * 2 + x starting from INT_MAX - 1000000; " ++
        "asserts x even"
      expectation := .errorReachable
      witness := []
      body := .program transformedEvenParity },
    { name := "nondet_bound_saturation"
      description := "nondet x below 1000000 is raised to 1000000, then to 100000000; " ++
        "asserts x == 1000000, then x != 100000000"
      expectation := .errorReachable
      witness := [0]
      body := .program nondetBoundSaturation },
    { name := "nested_nondet_loop"
      description := "outer loop over nondet x with inner loops of +5001 and -5000 steps; " ++
        "asserts x != 1000000 after every outer iteration"
      expectation := .errorReachable
      witness := [999999]
      body := .program nestedNondetLoop },
    { name := "while_break"
      description := "counter loop bounded by 5 that breaks once the counter reaches 4"
      expectation := .safe
      witness := []
      body := .program whileBreak },
    { name := "plusminus_transformed"
      description := "hand-summarised plus/minus loop starting from INT_MAX - 2000000"
      expectation := .invalid
      witness := []
      body := .malformed "statement `x-=2:` ends in ':' where ';' is expected" },
    { name := "complex_loop_predicates"
      description := "loop over x + i + y < 6000000 with three counters"
      expectation := .invalid
      witness := []
      body := .malformed "statement `i += 1:` ends in ':' where ';' is expected" } ]

def find (name : String) : Except Error Fixture :=
  match all.find? fun x => x.name = name with
  | some x => .ok x
  | none => .error (.unknownFixture name)

end VerifierBench.Fixture
