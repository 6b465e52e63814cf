import VerifierBench.Campaign
import VerifierBench.Proofs.Report.Oracle

/-! Sweeps as folds: which sextuples of a supply are looked at, and what the report and the memory
of the sink become. A sweep finds a violation if and only if its supply holds one. -/
namespace VerifierBench

namespace CampaignReport

@[simp] lemma cases_record (r : CampaignReport) (c : CaseReport) :
    (r.record c).cases = r.cases + 1 := rfl

lemma violations_record (r : CampaignReport) (c : CaseReport) :
    (r.record c).violations = r.violations + if c.verdict.isHolds then 0 else 1 := by
  cases h : c.verdict.isHolds <;> simp [record, h]

end CampaignReport

namespace DecisionTree
variable {μ : Type}

def caseReport (t : DecisionTree) (v : Sextuple) : CaseReport :=
  ⟨v, t.select v, Oracle.judge v (t.select v).result⟩

/-- The answer on six words violates the postcondition. -/
def violates (t : DecisionTree) (v : Sextuple) : Bool :=
  !Oracle.postconditionHolds v (t.select v).result

lemma isHolds_caseReport (t : DecisionTree) (v : Sextuple) :
    (t.caseReport v).verdict.isHolds = !t.violates v := by
  simp [caseReport, violates]

lemma violates_eq_false_iff (t : DecisionTree) (v : Sextuple) :
    t.violates v = false ↔
      ∀ p, v.get p ≤ (t.select v).result.max ∧ (t.select v).result.min ≤ v.get p := by
  rw [violates, Bool.not_eq_false', Oracle.postconditionHolds_iff]

/-- The sextuples of a list that a sweep looks at: all of them, or up to the first violation. -/
def processed (t : DecisionTree) (failFast : Bool) : List Sextuple → List Sextuple
  | [] => []
  | v :: vs => if failFast && t.violates v then [v] else v :: t.processed failFast vs

/-- The report after runs on some sextuples. -/
def recordAll (t : DecisionTree) (vs : List Sextuple) (r : CampaignReport) : CampaignReport :=
  vs.foldl (fun r v => r.record (t.caseReport v)) r

/-- The memory of a sink after runs on some sextuples. -/
def reachAll (t : DecisionTree) (sink : Sink μ) (vs : List Sextuple) (m : μ) : μ :=
  vs.foldl (fun m v => (t.caseReport v).verdict.report Oracle.location sink m) m

theorem sweepFrom_eq (t : DecisionTree) (sink : Sink μ) (failFast : Bool) (supply : Supply)
    (r : CampaignReport) (m : μ) :
    t.sweepFrom sink failFast supply r m =
      (t.recordAll (t.processed failFast supply.toList) r,
        t.reachAll sink (t.processed failFast supply.toList) m) := by
  induction supply generalizing r m with
  | done => rfl
  | more v rest ih =>
    have hrun : t.runOn sink v m =
        (t.caseReport v, (t.caseReport v).verdict.report Oracle.location sink m) := rfl
    simp only [sweepFrom, hrun, Supply.toList, processed, isHolds_caseReport, Bool.not_not, ih]
    split <;> rfl

lemma processed_prefix (t : DecisionTree) (failFast : Bool) (vs : List Sextuple) :
    t.processed failFast vs <+: vs := by
  induction vs with
  | nil => exact List.prefix_rfl
  | cons v vs ih =>
    rw [processed]
    split
    · exact List.cons_prefix_cons.mpr ⟨rfl, List.nil_prefix⟩
    · exact List.cons_prefix_cons.mpr ⟨rfl, ih⟩

/-- Stopping early loses no violation: the sweep stops behind one. -/
lemma exists_mem_processed_iff (t : DecisionTree) (failFast : Bool) (vs : List Sextuple) :
    (∃ v ∈ t.processed failFast vs, t.violates v = true) ↔ ∃ v ∈ vs, t.violates v = true := by
  induction vs with
  | nil => rfl
  | cons v vs ih =>
    rw [processed]
    split
    · next hstop =>
      have hv : t.violates v = true := (Bool.and_eq_true_iff.mp hstop).2
      simp [hv]
    · simp only [List.mem_cons, exists_eq_or_imp, ih]

@[simp] lemma recordAll_cons (t : DecisionTree) (v : Sextuple) (vs : List Sextuple)
    (r : CampaignReport) :
    t.recordAll (v :: vs) r = t.recordAll vs (r.record (t.caseReport v)) := rfl

lemma violations_recordAll (t : DecisionTree) (vs : List Sextuple) (r : CampaignReport) :
    (t.recordAll vs r).violations = r.violations + vs.countP t.violates := by
  induction vs generalizing r with
  | nil => rfl
  | cons v vs ih =>
    rw [recordAll_cons, ih, CampaignReport.violations_record, isHolds_caseReport,
      List.countP_cons]
    cases t.violates v with
    | false => simp
    | true =>
      simp only [Bool.not_true, Bool.false_eq_true, if_false, if_true]
      omega

/-- A sweep reports violations if and only if its supply holds a sextuple that is answered wrongly. -/
theorem violations_sweep_pos_iff (t : DecisionTree) (sink : Sink μ) (failFast : Bool)
    (supply : Supply) (m : μ) :
    0 < (t.sweep sink failFast supply m).1.violations ↔
      ∃ v ∈ supply.toList, t.violates v = true := by
  rw [sweep, sweepFrom_eq, violations_recordAll, ← exists_mem_processed_iff t failFast,
    ← List.countP_pos_iff]
  simp [CampaignReport.empty]

lemma violations_sweep_le (t : DecisionTree) (sink : Sink μ) (failFast : Bool) (supply : Supply)
    (m : μ) : (t.sweep sink failFast supply m).1.violations ≤ supply.toList.length := by
  rw [sweep, sweepFrom_eq, violations_recordAll]
  have hcount := List.countP_le_length (p := t.violates) (l := t.processed failFast supply.toList)
  have hlength := (t.processed_prefix failFast supply.toList).length_le
  simp only [CampaignReport.empty]
  omega

end DecisionTree
end VerifierBench
