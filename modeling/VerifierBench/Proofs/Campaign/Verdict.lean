import VerifierBench.Proofs.Report.Oracle
import VerifierBench.Proofs.Tree.Extrema
import VerifierBench.Campaign

/-! The verdict on a run as a statement about its answer. The oracle only asks for two bounds, which a
claimed pair could exceed at will. A tree cannot, whatever its guards compare: it answers with words of
its inputs, and bounds among the inputs are the extrema. -/
namespace VerifierBench

theorem Sextuple.hasExtrema_extrema (v : Sextuple) : v.HasExtrema v.extrema := by
  have h := DecisionTree.isExtremal_derived v
  exact (Oracle.postconditionHolds_iff_hasExtrema v _ _).mp
    ((Oracle.postconditionHolds_iff v _).mpr fun p => ⟨h.le_max p, h.min_le p⟩)

lemma Sextuple.hasExtrema_iff {v : Sextuple} {r : Extrema} : v.HasExtrema r ↔ r = v.extrema := by
  constructor
  · exact fun h => h.unique v.hasExtrema_extrema
  · rintro rfl
    exact v.hasExtrema_extrema

/-- However many faults a tree carries, the verdict on a run holds exactly if the answer is the maximum
and the minimum of the inputs, and so exactly if it is the answer of the derived tree. -/
theorem DecisionTree.verdict_decides_answer {μ : Type} (t : DecisionTree) (sink : Sink μ)
    (v : Sextuple) (m : μ) :
    (t.runOn sink v m).1.inputs = v ∧ (t.runOn sink v m).1.selection = t.select v ∧
    ((t.runOn sink v m).1.verdict = .holds ↔ v.HasExtrema (t.select v).result) ∧
    ((t.runOn sink v m).1.verdict = .holds ↔
      (t.select v).result = (derived.select v).result) := by
  have hverdict : (t.runOn sink v m).1.verdict = Oracle.judge v (t.select v).result := rfl
  have hholds : (t.runOn sink v m).1.verdict = .holds ↔ v.HasExtrema (t.select v).result := by
    rw [hverdict, Oracle.judge_eq_holds_iff, ← Oracle.postconditionHolds_iff]
    exact Oracle.postconditionHolds_iff_hasExtrema v (t.select v).leaf.max (t.select v).leaf.min
  exact ⟨rfl, rfl, hholds, hholds.trans Sextuple.hasExtrema_iff⟩

/-- A pair that is not read from the inputs can pass the oracle and still be wrong. -/
example : Oracle.postconditionHolds ⟨5, 5, 5, 5, 5, 5⟩ ⟨6, 4⟩ = true ∧
    Sextuple.extrema ⟨5, 5, 5, 5, 5, 5⟩ = ⟨5, 5⟩ := by decide

end VerifierBench
