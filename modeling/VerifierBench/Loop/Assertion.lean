import VerifierBench.Report.Oracle

/-! Assertions about one counter. -/
namespace VerifierBench

inductive ScalarPredicate
  | even
  | odd
  | equals (expected : Int32)
  | notEquals (excluded : Int32)
  deriving DecidableEq, Repr

namespace ScalarPredicate

/-- Parity is by the remainder of a division toward zero, which is -1 for odd negative words. -/
def holds : ScalarPredicate → Int32 → Bool
  | even, x => x % 2 == 0
  | odd, x => x % 2 != 0
  | equals n, x => x == n
  | notEquals n, x => x != n

def text (p : ScalarPredicate) (variableName : String) : String :=
  match p with
  | even => variableName ++ " % 2 == 0"
  | odd => variableName ++ " % 2 != 0"
  | equals n => variableName ++ " == " ++ wordText n
  | notEquals n => variableName ++ " != " ++ wordText n

def judge (p : ScalarPredicate) (l : Location) (variableName : String) (x : Int32) : Verdict :=
  if p.holds x then .holds
  else .violated ⟨l.text, [p.text variableName], variableName ++ " = " ++ wordText x⟩

/-- Judges a value and reports a violation. -/
def check {μ : Type} (sink : Sink μ) (p : ScalarPredicate) (l : Location) (variableName : String)
    (x : Int32) (m : μ) : Verdict × μ :=
  let verdict := p.judge l variableName x
  (verdict, verdict.report l sink m)

end ScalarPredicate
end VerifierBench
