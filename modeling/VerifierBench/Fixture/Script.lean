import VerifierBench.Loop.Assertion
import VerifierBench.Loop.Guarded
import VerifierBench.Source.Basic

/-! Scripts: what a fixture program does as far as its surroundings can tell. It draws words,
asserts something of a counter, and fails or ends. -/
namespace VerifierBench

inductive Script (α : Type)
  | done (value : α)
  | fail (cause : Error)
  | draw (next : Int32 → Script α)
  | claim (variableName : String) (predicate : ScalarPredicate) (x : Int32) (next : Script α)

namespace Script
variable {α β σ μ : Type}

def andThen : Script α → (α → Script β) → Script β
  | done a, g => g a
  | fail cause, _ => fail cause
  | draw next, g => draw fun x => (next x).andThen g
  | claim name p x next, g => claim name p x (next.andThen g)

instance : Monad Script where
  pure := done
  bind := andThen

def nondet : Script Int32 := draw done

def assert (variableName : String) (p : ScalarPredicate) (x : Int32) : Script Unit :=
  claim variableName p x (done ())

/-- The value of a computation that may fail. -/
def attempt : Except Error α → Script α
  | .ok a => done a
  | .error cause => fail cause

def accumulate (limit : UInt64) (a : Accumulation) : Script Int32 :=
  attempt ((a.run limit).map Summary.value)

def runLoop (limit : UInt64) (l : GuardedLoop) (start : Int32) : Script Int32 :=
  attempt ((l.run start limit).map Summary.value)

/-- Runs a script whose assertions belong to a location. -/
def run (source : Nondet σ) (sink : Sink μ) (l : Location) :
    Script α → σ → μ → Except Error α × σ × μ
  | done a, s, m => (.ok a, s, m)
  | fail cause, s, m => (.error cause, s, m)
  | draw next, s, m =>
    match source.draw s with
    | .ok (x, s) => (next x).run source sink l s m
    | .error cause => (.error cause, s, m)
  | claim name p x next, s, m => next.run source sink l s (p.check sink l name x m).2

end Script
end VerifierBench
