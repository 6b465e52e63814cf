import Mathlib.Tactic.Lemma
import VerifierBench.Report.CheckResult

/-! Results and exit statuses: each tells the other, and a result made of records shows them all. -/
namespace VerifierBench.CheckResult

lemma ofRecords_of_ne_nil {records : List Record} (h : records ≠ []) :
    ofRecords records = .violated records := by
  cases records with
  | nil => exact absurd rfl h
  | cons r rs => rfl

@[simp] lemma ofRecords_eq_holds_iff {records : List Record} :
    ofRecords records = .holds ↔ records = [] := by
  cases records <;> simp [ofRecords]

lemma ofRecords_ne_violated_nil (records : List Record) : ofRecords records ≠ .violated [] := by
  cases records <;> nofun

lemma ofRecords_ne_invalidFixture (records : List Record) (reason : String) :
    ofRecords records ≠ .invalidFixture reason := by
  cases records <;> nofun

lemma exitCode_eq_zero_iff {r : CheckResult} : r.exitCode = 0 ↔ r = .holds := by
  cases r <;> simp [exitCode]

lemma exitCode_eq_one_iff {r : CheckResult} : r.exitCode = 1 ↔ ∃ records, r = .violated records := by
  cases r <;> simp [exitCode]

lemma exitCode_eq_two_iff {r : CheckResult} :
    r.exitCode = 2 ↔ ∃ reason, r = .invalidFixture reason := by
  cases r <;> simp [exitCode]

end VerifierBench.CheckResult
