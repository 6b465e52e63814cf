import VerifierBench.Loop.Basic
import VerifierBench.Tree.Decision

/-! What can go wrong before a verdict is reached. A violated postcondition is no error: it is a
verdict. -/
namespace VerifierBench

/-- The causes of failure. -/
inductive Error
  | numeral (cause : Text.NumeralError)
  | invalidSextuple (text : String)
  | invalidPosition (text : String)
  | invalidFault (text : String)
  | unknownFaultSite (site : FaultSite)
  | conjunctOutOfRange (site : FaultSite) (conjunct : UInt64) (count : Nat)
  | invalidFixture (name reason : String)
  | unknownFixture (name : String)
  | summaryMismatch (iterated closedForm : Int32)
  | nonTerminatingLoop (loop : GuardedLoop)
  | overflowingSummary (loop : GuardedLoop)
  | invalidDomain (low high : Int32)
  | emptyRange (low high : Int32)
  | rejectedDraws (low high : Int32)
  deriving DecidableEq, Repr

/-- The explanation shown to the user. -/
def Error.message : Error → String
  | numeral cause => cause.message
  | invalidSextuple text =>
    "invalid sextuple '" ++ text ++ "': expected six comma-separated integers"
  | invalidPosition text =>
    "invalid position '" ++ text ++ "': expected one of a, b, c, d, e, f"
  | invalidFault text => "invalid fault description '" ++ text ++ "'"
  | unknownFaultSite site =>
    "fault site " ++ site.text ++ " does not exist in the decision tree"
  | conjunctOutOfRange site conjunct count =>
    "guard of " ++ site.text ++ " has " ++ toString count ++
      " conjunct(s), cannot replace conjunct " ++ toString conjunct.toNat
  | invalidFixture name reason => "fixture '" ++ name ++ "' is invalid: " ++ reason
  | unknownFixture name => "no fixture named '" ++ name ++ "'"
  | summaryMismatch iterated closedForm =>
    "iterated accumulation gave " ++ wordText iterated ++ " but the closed form gave " ++
      wordText closedForm
  | nonTerminatingLoop loop => "loop '" ++ loop.text ++ "' never reaches its exit condition"
  | overflowingSummary loop =>
    "summary of loop '" ++ loop.text ++ "' overflows before the guard is reached"
  | invalidDomain low high =>
    "sweep domain [" ++ wordText low ++ ", " ++ wordText high ++
      "] is empty or has more than 2^64 sextuples"
  | emptyRange low high =>
    "no value lies in the range [" ++ wordText low ++ ", " ++ wordText high ++ "]"
  | rejectedDraws low high =>
    "all words were rejected for the range [" ++ wordText low ++ ", " ++ wordText high ++ "]"

section Outcome
variable {α β : Type} {x : Except Error α}

theorem exists_of_map_eq_ok {g : α → β} {b : β} (h : x.map g = .ok b) :
    ∃ a, x = .ok a ∧ b = g a := by
  cases x with
  | error cause => cases h
  | ok a =>
    cases h
    exact ⟨a, rfl, rfl⟩

theorem map_eq_error_iff {g : α → β} {cause : Error} :
    x.map g = .error cause ↔ x = .error cause := by
  cases x <;> simp [Except.map]

theorem exists_of_bind_eq_ok {g : α → Except Error β} {b : β} (h : (x >>= g) = .ok b) :
    ∃ a, x = .ok a ∧ g a = .ok b := by
  cases x with
  | error cause => cases h
  | ok a => exact ⟨a, rfl, h⟩

end Outcome
end VerifierBench
