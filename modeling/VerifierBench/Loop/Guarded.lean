import VerifierBench.Loop.Accumulation
import VerifierBench.Number.Range

/-! Guarded loops: how often the body runs, worked out on unbounded integers, and the literal
execution on words. -/
namespace VerifierBench.GuardedLoop

/-- How far the counter is from its bound and how fast it comes nearer, if it does. -/
def approach? (l : GuardedLoop) (start : Int32) : Option (Int × Int) :=
  match l.guard with
  | .below b =>
    if 0 < l.delta.toInt then some (b.toInt - start.toInt, l.delta.toInt) else none
  | .above b =>
    if l.delta.toInt < 0 then some (start.toInt - b.toInt, -l.delta.toInt) else none

/-- The number of steps that cover a distance. -/
def stepsToCover (distance speed : Int) : Int := (distance + speed - 1) / speed

/-- The number of runs of the body when the guard alone allows `toGuard`: fewer if the break value
is met on the way. -/
def stepsToExit (l : GuardedLoop) (start : Int32) (toGuard : Int) : Int :=
  match l.breakAt with
  | none => toGuard
  | some e =>
    let offset := e.toInt - start.toInt
    let delta := l.delta.toInt
    if offset % delta = 0 ∧ 1 ≤ offset / delta ∧ offset / delta ≤ toGuard then offset / delta
    else toGuard

/-- The number of runs of the body from a start value. -/
def iterations (l : GuardedLoop) (start : Int32) : Except Error UInt64 :=
  if l.guard.holds start then
    match l.approach? start with
    | none => .error (.nonTerminatingLoop l)
    | some (distance, speed) =>
      let count := l.stepsToExit start (stepsToCover distance speed)
      let last := start.toInt + count * l.delta.toInt
      if isInt32 last then .ok (UInt64.ofNat count.toNat)
      else .error (.overflowingSummary l)
  else .ok 0

def summarize (l : GuardedLoop) (start : Int32) : Except Error Step := do
  return ⟨← l.iterations start, l.delta⟩

/-- The counter after the loop, confirmed by iteration if that takes at most `limit` additions. -/
def run (l : GuardedLoop) (start : Int32) (limit : UInt64) : Except Error Summary := do
  let step ← l.summarize start
  Accumulation.run ⟨start, [step]⟩ limit

/-- Runs the body at most `fuel` times; gives none if the loop has not exited by then. -/
def executeFor (l : GuardedLoop) : Nat → Int32 → Option Int32
  | 0, x => if l.guard.holds x then none else some x
  | fuel + 1, x =>
    if l.guard.holds x then
      let y := x + l.delta
      if l.breakAt = some y then some y else l.executeFor fuel y
    else some x

/-- Literal execution on words. There are `2 ^ 32` counter values, so a loop that runs longer than
that runs forever. -/
def execute (l : GuardedLoop) (start : Int32) : Option Int32 :=
  l.executeFor UInt32.size start

end VerifierBench.GuardedLoop
