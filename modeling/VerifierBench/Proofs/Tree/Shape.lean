import VerifierBench.Proofs.Tree.Injection

/-! The shape of a tree: everything but the comparisons in its guards. Trying to put in a fault never
changes it, whether the fault is accepted or refused, so it is the shape of the derived tree after any
number of attempts. Which faults are accepted depends on the shape alone. -/
namespace VerifierBench

namespace Cascade
variable {c d k : Cascade} {p : Position}

/-- The cascades differ in nothing but what their guards compare. -/
structure SameShape (c d : Cascade) : Prop where
  extremum : c.extremum = d.extremum
  candidates : c.branches.map Branch.candidate = d.branches.map Branch.candidate
  lengths : (c.branches.map fun b => b.guard.length) = d.branches.map fun b => b.guard.length
  fallback : c.fallback = d.fallback

namespace SameShape

lemma refl (c : Cascade) : c.SameShape c := ⟨rfl, rfl, rfl, rfl⟩

lemma symm (h : c.SameShape d) : d.SameShape c :=
  ⟨h.extremum.symm, h.candidates.symm, h.lengths.symm, h.fallback.symm⟩

lemma trans (hcd : c.SameShape d) (hdk : d.SameShape k) : c.SameShape k :=
  ⟨hcd.extremum.trans hdk.extremum, hcd.candidates.trans hdk.candidates,
    hcd.lengths.trans hdk.lengths, hcd.fallback.trans hdk.fallback⟩

lemma outcomes (h : c.SameShape d) : c.outcomes = d.outcomes := by
  simp only [Cascade.outcomes, h.candidates, h.fallback]

end SameShape

lemma lengths_modifyBranches {g : List Comparison → List Comparison}
    (hg : ∀ guard, (g guard).length = guard.length) (p : Position) (bs : List Branch) :
    ((modifyBranches p g bs).map fun b => b.guard.length) = bs.map fun b => b.guard.length := by
  induction bs with
  | nil => rfl
  | cons b bs ih =>
    rw [modifyBranches]
    split
    · simp only [List.map_cons, hg]
    · simp only [List.map_cons, ih]

theorem sameShape_replaceConjunct (c : Cascade) (p : Position) (n : ℕ) (r : Comparison) :
    (c.replaceConjunct p n r).SameShape c where
  extremum := rfl
  candidates := modifyBranches_candidates ..
  lengths := lengths_modifyBranches (fun _ => List.length_set) p c.branches
  fallback := rfl

/-- Looking for a branch meets the same number of conjuncts, by induction along both lists. -/
lemma map_length_find? {bs es : List Branch} (hc : bs.map Branch.candidate = es.map Branch.candidate)
    (hl : (bs.map fun b => b.guard.length) = es.map fun b => b.guard.length) (p : Position) :
    ((bs.find? fun b => b.candidate = p).map fun b => b.guard.length) =
      (es.find? fun b => b.candidate = p).map fun b => b.guard.length := by
  induction bs generalizing es with
  | nil =>
    obtain rfl := List.map_eq_nil_iff.mp hc.symm
    rfl
  | cons b bs ih =>
    cases es with
    | nil => cases hc
    | cons e es =>
      simp only [List.map_cons, List.cons.injEq] at hc hl
      simp only [List.find?_cons, hc.1]
      by_cases hp : e.candidate = p
      · simp [hp, hl.1]
      · simpa [hp] using ih hc.2 hl.2

lemma SameShape.guard?_length (h : c.SameShape d) (p : Position) :
    (c.guard? p).map List.length = (d.guard? p).map List.length := by
  rw [guard?, guard?, Option.map_map, Option.map_map]
  exact map_length_find? h.candidates h.lengths p

lemma guard_ne_nil_derive (e : Extremum) (ps : List Position) (fallback : Position) :
    ∀ b ∈ (derive e ps fallback).branches, b.guard ≠ [] := by
  simp only [derive]
  induction ps with
  | nil => simp [deriveBranches]
  | cons p ps ih =>
    rw [deriveBranches]
    exact List.forall_mem_cons.mpr ⟨by simp, ih⟩

lemma SameShape.guard_ne_nil (h : c.SameShape d) (hd : ∀ b ∈ d.branches, b.guard ≠ []) :
    ∀ b ∈ c.branches, b.guard ≠ [] := by
  intro b hb hnil
  have hzero : 0 ∈ c.branches.map fun b => b.guard.length :=
    List.mem_map.mpr ⟨b, hb, by rw [hnil, List.length_nil]⟩
  rw [h.lengths, List.mem_map] at hzero
  obtain ⟨b', hb', hempty⟩ := hzero
  exact hd b' hb' (List.eq_nil_of_length_eq_zero hempty)

end Cascade

namespace DecisionTree
variable {t u k : DecisionTree} {f : Fault}

/-- All seven cascades have the same shapes. -/
structure SameShape (t u : DecisionTree) : Prop where
  max : t.max.SameShape u.max
  min : ∀ m, (t.min.get m).SameShape (u.min.get m)

namespace SameShape

lemma refl (t : DecisionTree) : t.SameShape t := ⟨.refl _, fun _ => .refl _⟩

lemma symm (h : t.SameShape u) : u.SameShape t := ⟨h.max.symm, fun m => (h.min m).symm⟩

lemma trans (htu : t.SameShape u) (huk : u.SameShape k) : t.SameShape k :=
  ⟨htu.max.trans huk.max, fun m => (htu.min m).trans (huk.min m)⟩

lemma cascadeAt (h : t.SameShape u) (s : FaultSite) :
    (t.cascadeAt s).SameShape (u.cascadeAt s) := by
  cases s with
  | maxGuard p => exact h.max
  | minGuard m p => exact h.min m

lemma leaves (h : t.SameShape u) : t.leaves = u.leaves := by
  simp only [DecisionTree.leaves, h.max.outcomes, (h.min _).outcomes]

end SameShape

lemma sameShape_setCascadeAt {c : Cascade} {s : FaultSite} (h : c.SameShape (t.cascadeAt s))
    (x : Option Fault) : SameShape { t.setCascadeAt c s with fault := x } t := by
  cases s with
  | maxGuard p => exact ⟨h, fun m => .refl _⟩
  | minGuard m p =>
    refine ⟨.refl _, fun q => ?_⟩
    simp only [setCascadeAt, Slots.get_set]
    split
    · next hq => exact hq ▸ h
    · exact .refl _

/-- A fault that is put in leaves the shape alone. -/
theorem sameShape_inject (h : t.inject f = .ok u) : u.SameShape t := by
  obtain ⟨guard, -, -, rfl⟩ := inject_eq_ok h
  exact sameShape_setCascadeAt (Cascade.sameShape_replaceConjunct ..) _

theorem sameShape_injectAll {fs : List Fault} (h : t.injectAll fs = .ok u) : u.SameShape t := by
  induction fs generalizing t with
  | nil =>
    cases h
    exact .refl _
  | cons f fs ih =>
    cases hf : t.inject f with
    | error cause =>
      rw [injectAll, hf] at h
      cases h
    | ok next =>
      rw [injectAll, hf] at h
      exact (ih h).trans (sameShape_inject hf)

/-- The number of conjuncts in the guard at a site, if there is a guard. -/
def guardLength? (t : DecisionTree) (s : FaultSite) : Option ℕ :=
  ((t.cascadeAt s).guard? s.candidate).map List.length

lemma SameShape.guardLength?_eq (h : t.SameShape u) (s : FaultSite) :
    t.guardLength? s = u.guardLength? s :=
  (h.cascadeAt s).guard?_length s.candidate

/-- A fault is refused for a site without guard, or for a conjunct behind the last one. -/
theorem inject_eq_error_iff {cause : Error} : t.inject f = .error cause ↔
    (t.guardLength? f.site = none ∧ cause = .unknownFaultSite f.site) ∨
      ∃ n, t.guardLength? f.site = some n ∧ n ≤ f.conjunct.toNat ∧
        cause = .conjunctOutOfRange f.site f.conjunct n := by
  rw [inject, guardLength?]
  cases (t.cascadeAt f.site).guard? f.site.candidate with
  | none => simp [eq_comm]
  | some guard =>
    by_cases hlt : f.conjunct.toNat < guard.length
    · simp [hlt, Nat.not_le.mpr hlt]
    · simp [hlt, Nat.not_lt.mp hlt, eq_comm]

lemma SameShape.inject_eq_error_iff (h : t.SameShape u) {cause : Error} :
    t.inject f = .error cause ↔ u.inject f = .error cause := by
  rw [DecisionTree.inject_eq_error_iff, DecisionTree.inject_eq_error_iff, h.guardLength?_eq]

end DecisionTree
end VerifierBench
