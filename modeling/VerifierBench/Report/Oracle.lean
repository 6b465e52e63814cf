import VerifierBench.Report.Sink
import VerifierBench.Tree.Decision

/-! Verdicts, and the postcondition of the max/min program: no input above the maximum and none
below the minimum. The oracle only observes an answer that is already there. -/
namespace VerifierBench

/-- A postcondition that failed: where, which of its conjuncts, and in which state. -/
structure Violation where
  location : String
  failed : List String
  state : String
  deriving DecidableEq, Repr

def Violation.text (v : Violation) : String :=
  v.location ++ ": (" ++ ") && (".intercalate v.failed ++ ") does not hold for " ++ v.state

inductive Verdict
  | holds
  | violated (violation : Violation)
  deriving DecidableEq, Repr

namespace Verdict

def isHolds : Verdict → Bool
  | holds => true
  | violated _ => false

/-- A violation reaches the sink once, with its own text. -/
def report {μ : Type} (verdict : Verdict) (l : Location) (sink : Sink μ) (m : μ) : μ :=
  match verdict with
  | holds => m
  | violated v => sink.reach l v.text m

end Verdict

namespace Oracle

/-- The error label of the max/min program. -/
def location : Location := ⟨"maxmin6", "ERROR"⟩

/-- The conjuncts that are false: first those on the maximum, then those on the minimum. -/
def failedConjuncts (v : Sextuple) (r : Extrema) : List String :=
  ((Position.all.filter fun p => r.max < v.get p).map fun p => "max >= " ++ p.name) ++
    ((Position.all.filter fun p => v.get p < r.min).map fun p => "min <= " ++ p.name)

def postconditionHolds (v : Sextuple) (r : Extrema) : Bool :=
  Position.all.all fun p => v.get p ≤ r.max && r.min ≤ v.get p

def judge (v : Sextuple) (r : Extrema) : Verdict :=
  if postconditionHolds v r then .holds
  else .violated ⟨location.text, failedConjuncts v r, "inputs (" ++ v.text ++ ") with " ++ r.text⟩

def check {μ : Type} (sink : Sink μ) (v : Sextuple) (r : Extrema) (m : μ) : Verdict × μ :=
  let verdict := judge v r
  (verdict, verdict.report location sink m)

end Oracle
end VerifierBench
