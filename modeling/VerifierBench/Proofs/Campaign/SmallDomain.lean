import VerifierBench.Proofs.Campaign.Faultless
import VerifierBench.Proofs.Source.Grid
import VerifierBench.Proofs.Tree.RelativeOrder

/-! Verdicts depend on the relative order of the words alone. So a tree that is right about all
sextuples over six words in a row is right about all sextuples, and one sweep tells. -/
namespace VerifierBench

/-- Two verdicts that both hold, or that are both violated in the same conjuncts. -/
inductive Verdict.Agree : Verdict → Verdict → Prop
  | hold : Agree holds holds
  | violate {x y : Violation} (h : x.failed = y.failed) : Agree (violated x) (violated y)

namespace Oracle
variable {u v : Sextuple}

/-- The claimed words are words of the sextuples, so they pass the same bounds in both. -/
lemma postconditionHolds_congr (h : u.SameOrder v) (p q : Position) :
    postconditionHolds u ⟨u.get p, u.get q⟩ = postconditionHolds v ⟨v.get p, v.get q⟩ := by
  simp only [postconditionHolds, ← Int32.not_lt, h _ _]

lemma failedConjuncts_congr (h : u.SameOrder v) (p q : Position) :
    failedConjuncts u ⟨u.get p, u.get q⟩ = failedConjuncts v ⟨v.get p, v.get q⟩ := by
  simp only [failedConjuncts, h _ _]

theorem agree_judge (h : u.SameOrder v) (p q : Position) :
    (judge u ⟨u.get p, u.get q⟩).Agree (judge v ⟨v.get p, v.get q⟩) := by
  rw [judge, judge, postconditionHolds_congr h]
  split
  · exact .hold
  · exact .violate (failedConjuncts_congr h p q)

end Oracle

namespace DecisionTree
variable {u v : Sextuple}

lemma result_select (t : DecisionTree) (v : Sextuple) :
    (t.select v).result = ⟨v.get (t.select v).leaf.max, v.get (t.select v).leaf.min⟩ := rfl

lemma agree_judge_select (h : u.SameOrder v) (t : DecisionTree) :
    (Oracle.judge u (t.select u).result).Agree (Oracle.judge v (t.select v).result) := by
  rw [result_select, result_select, t.leaf_congr h]
  exact Oracle.agree_judge h _ _

lemma violates_congr (h : u.SameOrder v) (t : DecisionTree) : t.violates u = t.violates v := by
  rw [violates, violates, result_select, result_select, t.leaf_congr h,
    Oracle.postconditionHolds_congr h]

lemma contains_compressed {low high : Int32} (hwidth : high.toInt = low.toInt + 5) (v : Sextuple) :
    (Grid.between low high).Contains (v.compressed low) := by
  intro p
  have hrank := v.rank_le_five p
  have hword := Sextuple.toInt_compressed hwidth v p
  simp only [Grid.between, Int32.le_iff_toInt_le, hword]
  omega

/-- Each sextuple is answered as the one over the small domain in the same relative order. -/
theorem faultless_of_small {t : DecisionTree} {low high : Int32}
    (hwidth : high.toInt = low.toInt + 5)
    (hsmall : ∀ v, (Grid.between low high).Contains v → t.violates v = false) : t.Faultless := by
  intro v
  rw [← t.violates_congr (Sextuple.sameOrder_compressed hwidth v)]
  exact hsmall _ (contains_compressed hwidth v)

lemma violations_sweep_between_eq_zero_iff (t : DecisionTree) {μ : Type} (sink : Sink μ)
    (failFast : Bool) (low high : Int32) (m : μ) :
    (t.sweep sink failFast (.ofGrid (.between low high)) m).1.violations = 0 ↔
      ∀ v, (Grid.between low high).Contains v → t.violates v = false := by
  have hfound := t.violations_sweep_pos_iff sink failFast (.ofGrid (.between low high)) m
  rw [← Nat.le_zero, ← Nat.not_lt, hfound]
  simp only [Supply.mem_ofGrid_between, not_exists, not_and, Bool.not_eq_true]

/-- Sextuples in the same relative order take the same leaf and fail in the same conjuncts. So no
tree violates the postcondition anywhere that does not violate it over six words in a row, and a sweep
over those decides it. -/
theorem verdict_of_relative_order (t : DecisionTree) :
    (∀ u v, Sextuple.SameOrder u v → (t.select u).leaf = (t.select v).leaf ∧
      (Oracle.judge u (t.select u).result).Agree (Oracle.judge v (t.select v).result)) ∧
    ∀ low high : Int32, high.toInt = low.toInt + 5 →
      ((∀ v, (Grid.between low high).Contains v → t.violates v = false) → t.Faultless) ∧
      ∀ (μ : Type) (sink : Sink μ) failFast m,
        (t.sweep sink failFast (.ofGrid (.between low high)) m).1.violations = 0 ↔
          t.Faultless := by
  refine ⟨fun u v h => ⟨t.leaf_congr h, t.agree_judge_select h⟩, ?_⟩
  intro low high hwidth
  refine ⟨faultless_of_small hwidth, ?_⟩
  intro μ sink failFast m
  rw [violations_sweep_between_eq_zero_iff]
  exact ⟨faultless_of_small hwidth, fun hfaultless v _ => hfaultless v⟩

end DecisionTree
end VerifierBench
