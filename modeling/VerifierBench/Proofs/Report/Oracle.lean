import Mathlib.Data.Set.Operations
import Mathlib.Order.Bounds.Defs
import Mathlib.Tactic.Lemma
import VerifierBench.Report.Oracle

/-! The postcondition as a statement about all positions, and the verdict as its truth value. -/
namespace VerifierBench

@[simp] lemma Verdict.report_holds {μ : Type} (l : Location) (sink : Sink μ) (m : μ) :
    Verdict.holds.report l sink m = m := rfl

namespace Oracle

theorem postconditionHolds_iff (v : Sextuple) (r : Extrema) :
    postconditionHolds v r = true ↔ ∀ p, v.get p ≤ r.max ∧ r.min ≤ v.get p := by
  simp [postconditionHolds, Position.mem_all]

theorem judge_eq_holds_iff (v : Sextuple) (r : Extrema) :
    judge v r = .holds ↔ ∀ p, v.get p ≤ r.max ∧ r.min ≤ v.get p := by
  rw [← postconditionHolds_iff, judge]
  split <;> simp_all

@[simp] lemma isHolds_judge (v : Sextuple) (r : Extrema) :
    (judge v r).isHolds = postconditionHolds v r := by
  rw [judge]
  split <;> simp_all [Verdict.isHolds]

end Oracle

/-- The answer is the greatest and the least of six words. -/
def Sextuple.HasExtrema (v : Sextuple) (r : Extrema) : Prop :=
  IsGreatest (Set.range v.get) r.max ∧ IsLeast (Set.range v.get) r.min

/-- The greatest and the least word pass the oracle. -/
lemma Sextuple.HasExtrema.postconditionHolds {v : Sextuple} {r : Extrema} (h : v.HasExtrema r) :
    Oracle.postconditionHolds v r = true :=
  (Oracle.postconditionHolds_iff v r).mpr fun p => ⟨h.1.2 ⟨p, rfl⟩, h.2.2 ⟨p, rfl⟩⟩

/-- There is one greatest and one least word, also where several positions hold it. -/
lemma Sextuple.HasExtrema.unique {v : Sextuple} {r s : Extrema} (hr : v.HasExtrema r)
    (hs : v.HasExtrema s) : r = s := by
  have hmax : r.max = s.max := Int32.le_antisymm (hs.1.2 hr.1.1) (hr.1.2 hs.1.1)
  have hmin : r.min = s.min := Int32.le_antisymm (hr.2.2 hs.2.1) (hs.2.2 hr.2.1)
  cases r
  cases s
  rw [Extrema.mk.injEq]
  exact ⟨hmax, hmin⟩

/-- Bounds of a sextuple that are words of it are its extrema. -/
theorem Oracle.postconditionHolds_iff_hasExtrema (v : Sextuple) (p q : Position) :
    postconditionHolds v ⟨v.get p, v.get q⟩ = true ↔ v.HasExtrema ⟨v.get p, v.get q⟩ := by
  refine ⟨fun h => ?_, Sextuple.HasExtrema.postconditionHolds⟩
  have hbounds := (postconditionHolds_iff v _).mp h
  refine ⟨⟨⟨p, rfl⟩, ?_⟩, ⟨q, rfl⟩, ?_⟩
  · rintro _ ⟨r, rfl⟩
    exact (hbounds r).1
  · rintro _ ⟨r, rfl⟩
    exact (hbounds r).2

end VerifierBench
