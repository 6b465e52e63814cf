import VerifierBench.Fixture.Script
import VerifierBench.Report.CheckResult

/-! Fixtures: small loop programs with the verdict a verifier should give on them. -/
namespace VerifierBench

/-- What should be concluded about a fixture. -/
inductive Expectation
  | safe
  | errorReachable
  | invalid
  deriving DecidableEq, Repr

def Expectation.text : Expectation → String
  | safe => "Safe"
  | errorReachable => "ErrorReachable"
  | invalid => "Invalid"

/-- A program, given the number of additions up to which its loops are cross-checked, or the reason
why its text cannot be read. -/
inductive FixtureBody
  | program (script : UInt64 → Script Unit)
  | malformed (reason : String)

structure Fixture where
  name : String
  description : String
  expectation : Expectation
  /-- Words under which the expected verdict is observed. -/
  witness : List Int32
  body : FixtureBody

namespace Fixture
variable {σ μ : Type}

def location (x : Fixture) : Location := ⟨x.name, "reach_error"⟩

/-- Runs the program; failed assertions are reported even if it fails later. -/
def run (x : Fixture) (source : Nondet σ) (sink : Sink μ) (limit : UInt64) (s : σ) (m : μ) :
    Except Error Unit × σ × μ :=
  match x.body with
  | .program script => (script limit).run source sink x.location s m
  | .malformed reason => (.error (.invalidFixture x.name reason), s, m)

/-- The verdict on a fixture. A malformed fixture has a verdict of its own; any other failure is
passed on. -/
def check (x : Fixture) (source : Nondet σ) (limit : UInt64) (s : σ) : Except Error CheckResult :=
  match x.run source .recorder limit s #[] with
  | (.ok (), _, records) => .ok (.ofRecords records.toList)
  | (.error (.invalidFixture name reason), _, _) =>
    .ok (.invalidFixture (Error.invalidFixture name reason).message)
  | (.error cause, _, _) => .error cause

/-- The verdict on given words, or on the witness. -/
def checkOn (x : Fixture) (inputs : Option (List Int32)) (limit : UInt64) :
    Except Error CheckResult :=
  x.check Source.nondet limit (.fixed (inputs.getD x.witness))

def isAsExpected (x : Fixture) (r : CheckResult) : Bool :=
  match x.expectation, r with
  | .safe, .holds => true
  | .errorReachable, .violated _ => true
  | .invalid, .invalidFixture _ => true
  | _, _ => false

end Fixture
end VerifierBench
