import Mathlib.Tactic.Lemma
import Mathlib.Tactic.ByContra
import VerifierBench.Tree.Decision

/-! Which position a derived cascade picks: the last one of its candidates whose word is extremal.
Guards look only at later candidates; that nothing earlier is better follows from the failure of all
earlier guards. Leaving out the position of the maximum does not lose the minimum. -/
namespace VerifierBench

namespace Extremum

@[simp] lemma prefers_self (e : Extremum) (x : Int32) : e.prefers x x = false := by
  cases e <;> simp [prefers]

/-- A word that is not preferred to a second one is not preferred to anything at least as good. -/
lemma not_prefers_trans {e : Extremum} {x y z : Int32} (hxy : e.prefers x y = false)
    (hyz : e.prefers y z = false) : e.prefers x z = false := by
  cases e <;> simp only [prefers, decide_eq_false_iff_not, Int32.lt_iff_toInt_lt] at * <;> omega

lemma not_prefers_of_prefers {e : Extremum} {x y : Int32} (h : e.prefers x y = true) :
    e.prefers y x = false := by
  cases e <;> simp only [prefers, decide_eq_true_eq, decide_eq_false_iff_not,
    Int32.lt_iff_toInt_lt] at * <;> omega

end Extremum

/-- `p` stands in `ps` at the last place whose word is extremal: nothing before that place is
preferred to it, and it is preferred to everything after. -/
def LastExtremal (e : Extremum) (v : Sextuple) (ps : List Position) (p : Position) : Prop :=
  ∃ before after, ps = before ++ p :: after ∧
    (∀ q ∈ before, e.prefers (v.get q) (v.get p) = false) ∧
    ∀ q ∈ after, e.prefers (v.get p) (v.get q) = true

namespace LastExtremal
variable {e : Extremum} {v : Sextuple} {ps : List Position} {p : Position}

lemma mem (h : LastExtremal e v ps p) : p ∈ ps := by
  obtain ⟨before, after, rfl, -, -⟩ := h
  simp

lemma not_prefers (h : LastExtremal e v ps p) {q : Position} (hq : q ∈ ps) :
    e.prefers (v.get q) (v.get p) = false := by
  obtain ⟨before, after, rfl, hbefore, hafter⟩ := h
  rcases List.mem_append.mp hq with hq | hq
  · exact hbefore q hq
  · rcases List.mem_cons.mp hq with rfl | hq
    · exact Extremum.prefers_self e _
    · exact Extremum.not_prefers_of_prefers (hafter q hq)

/-- In a list that follows the order of the positions, everything later is strictly worse. -/
lemma prefers_later (h : LastExtremal e v ps p) (hs : ps.Pairwise fun p q => p.index < q.index)
    {q : Position} (hq : q ∈ ps) (hlt : p.index < q.index) :
    e.prefers (v.get p) (v.get q) = true := by
  obtain ⟨before, after, rfl, -, hafter⟩ := h
  rcases List.mem_append.mp hq with hq | hq
  · have horder := (List.pairwise_append.mp hs).2.2 q hq p (List.mem_cons_self ..)
    omega
  · rcases List.mem_cons.mp hq with rfl | hq
    · omega
    · exact hafter q hq

lemma eq_of_prefers (h : LastExtremal e v ps p) {q : Position} (hq : q ∈ ps)
    (hbest : ∀ r ∈ ps, r ≠ q → e.prefers (v.get q) (v.get r) = true) : p = q := by
  by_contra hne
  have hpq := hbest p h.mem hne
  rw [h.not_prefers hq] at hpq
  cases hpq

end LastExtremal

namespace Cascade

lemma resolve_cons (e : Extremum) (b : Branch) (bs : List Branch) (fallback : Position)
    (v : Sextuple) : resolve ⟨e, b :: bs, fallback⟩ v =
      if b.accepts e v = true then b.candidate else resolve ⟨e, bs, fallback⟩ v := by
  simp only [resolve, List.find?_cons]
  cases b.accepts e v <;> rfl

lemma accepts_derived (e : Extremum) (p : Position) (later : List Position) (v : Sextuple) :
    (Branch.mk p (later.map (Comparison.mk p))).accepts e v = true ↔
      ∀ q ∈ later, e.prefers (v.get p) (v.get q) = true := by
  simp [Branch.accepts, Comparison.holds]

/-- By induction on the candidates: a guard that fails leaves something no worse after it. -/
theorem lastExtremal_derive (e : Extremum) (ps : List Position) (fallback : Position)
    (v : Sextuple) :
    LastExtremal e v (ps ++ [fallback]) ((derive e ps fallback).resolve v) := by
  induction ps with
  | nil => exact ⟨[], [], rfl, by simp, by simp⟩
  | cons p ps ih =>
    have hstep : (derive e (p :: ps) fallback).resolve v =
        if (Branch.mk p ((ps ++ [fallback]).map (Comparison.mk p))).accepts e v = true then p
        else (derive e ps fallback).resolve v := resolve_cons ..
    rw [hstep]
    split
    · next haccepts =>
      exact ⟨[], ps ++ [fallback], rfl, by simp, (accepts_derived e p _ v).mp haccepts⟩
    · next hrejects =>
      rw [accepts_derived] at hrejects
      obtain ⟨q, hq, hpq⟩ : ∃ q ∈ ps ++ [fallback], e.prefers (v.get p) (v.get q) = false := by
        simpa using hrejects
      have hp := Extremum.not_prefers_trans hpq (ih.not_prefers hq)
      obtain ⟨before, after, hps, hbefore, hafter⟩ := ih
      refine ⟨p :: before, after, by rw [List.cons_append, hps, List.cons_append], ?_, hafter⟩
      intro r hr
      rcases List.mem_cons.mp hr with rfl | hr
      · exact hp
      · exact hbefore r hr

end Cascade

namespace DecisionTree

@[simp] lemma select_result_max (t : DecisionTree) (v : Sextuple) :
    (t.select v).result.max = v.get (t.select v).leaf.max := rfl

@[simp] lemma select_result_min (t : DecisionTree) (v : Sextuple) :
    (t.select v).result.min = v.get (t.select v).leaf.min := rfl

lemma dropLast_append_getLastD {ps : List Position} (hps : ps ≠ []) :
    ps.dropLast ++ [ps.getLastD .f] = ps := by
  rw [List.getLastD_eq_getLast?, List.getLast?_eq_some_getLast hps, Option.getD_some,
    List.dropLast_concat_getLast]

lemma lastExtremal_deriveOver (e : Extremum) {ps : List Position} (hps : ps ≠ []) (v : Sextuple) :
    LastExtremal e v ps ((deriveOver e ps).resolve v) := by
  have h := Cascade.lastExtremal_derive e ps.dropLast (ps.getLastD .f) v
  rwa [dropLast_append_getLastD hps] at h

/-- The candidates for the minimum once a maximum is chosen. -/
def others (chosen : Position) : List Position := Position.all.filter fun p => p ≠ chosen

@[simp] lemma mem_others {p chosen : Position} : p ∈ others chosen ↔ p ≠ chosen := by
  simp [others, Position.mem_all]

lemma pairwise_all : Position.all.Pairwise fun p q => p.index < q.index := by decide

lemma pairwise_others (chosen : Position) :
    (others chosen).Pairwise fun p q => p.index < q.index :=
  pairwise_all.filter _

lemma others_ne_nil (chosen : Position) : others chosen ≠ [] := by cases chosen <;> decide

lemma derived_min (chosen : Position) :
    derived.min.get chosen = deriveOver .min (others chosen) := by
  simp [derived, others]

theorem lastExtremal_max (v : Sextuple) :
    LastExtremal .max v Position.all (derived.select v).leaf.max :=
  lastExtremal_deriveOver .max (List.cons_ne_nil _ _) v

/-- Whatever is taken for the maximum, the derived cascades find the least of the other words. -/
theorem lastExtremal_min {t : DecisionTree} (h : t.min = derived.min) (v : Sextuple) :
    LastExtremal .min v (others (t.select v).leaf.max) (t.select v).leaf.min := by
  have hmin := lastExtremal_deriveOver .min (others_ne_nil (t.select v).leaf.max) v
  rwa [← derived_min, ← h] at hmin

end DecisionTree

/-- The answer holds the extrema, and the leaf the last positions of them; the position of the
maximum is left out for the minimum. -/
structure Selection.IsExtremal (s : Selection) (v : Sextuple) : Prop where
  max_at : s.result.max = v.get s.leaf.max
  min_at : s.result.min = v.get s.leaf.min
  le_max : ∀ p, v.get p ≤ s.result.max
  min_le : ∀ p, s.result.min ≤ v.get p
  max_last : ∀ p, s.leaf.max.index < p.index → v.get p < s.result.max
  min_ne_max : s.leaf.min ≠ s.leaf.max
  min_last : ∀ p, p ≠ s.leaf.max → s.leaf.min.index < p.index → s.result.min < v.get p

/-- The position of the maximum is no better for the minimum than any of the other five. -/
theorem DecisionTree.isExtremal_derived (v : Sextuple) :
    (derived.select v).IsExtremal v := by
  have hmax := lastExtremal_max v
  have hmin := lastExtremal_min rfl v
  have hle : ∀ p, v.get p ≤ v.get (derived.select v).leaf.max := by
    intro p
    simpa [Extremum.prefers] using hmax.not_prefers p.mem_all
  have hne := mem_others.mp hmin.mem
  refine ⟨rfl, rfl, hle, ?_, ?_, hne, ?_⟩
  · intro p
    by_cases hp : p = (derived.select v).leaf.max
    · rw [hp]
      exact hle _
    · simpa [Extremum.prefers] using hmin.not_prefers (mem_others.mpr hp)
  · intro p hp
    simpa [Extremum.prefers] using hmax.prefers_later pairwise_all p.mem_all hp
  · intro p hp hlt
    simpa [Extremum.prefers] using
      hmin.prefers_later (pairwise_others _) (mem_others.mpr hp) hlt

end VerifierBench
