import Mathlib.Data.Nat.Notation
import VerifierBench.Proofs.Tree.Extrema
import VerifierBench.Tree.Injection

/-! What an accepted fault does to a tree, and which position a cascade with one conjunct replaced
picks: the faulty branch decides as soon as all branches before it reject. -/
namespace VerifierBench

namespace Cascade

lemma modifyBranches_eq_self {p : Position} {g : List Comparison → List Comparison}
    {bs : List Branch} {guard : List Comparison}
    (hfind : (bs.find? fun b => b.candidate = p).map Branch.guard = some guard)
    (hguard : g guard = guard) : modifyBranches p g bs = bs := by
  induction bs with
  | nil => cases hfind
  | cons b bs ih =>
    rw [modifyBranches]
    split
    · next hp =>
      have hb : b.guard = guard := by simpa [List.find?_cons, hp] using hfind
      rw [hb, hguard, ← hb]
    · next hp =>
      rw [ih (by simpa [List.find?_cons, hp] using hfind)]

theorem replaceConjunct_eq_self {c : Cascade} {p : Position} {n : ℕ} {r : Comparison}
    {guard : List Comparison} (hguard : c.guard? p = some guard) (hr : guard[n]? = some r) :
    c.replaceConjunct p n r = c := by
  have hset : guard.set n r = guard := by
    obtain ⟨hn, rfl⟩ := List.getElem?_eq_some_iff.mp hr
    exact List.set_getElem_self hn
  rw [replaceConjunct, modifyBranches_eq_self hguard hset]

/-- A candidate of a derived cascade is guarded against everything after it. -/
theorem guard?_derive {e : Extremum} {ps : List Position} {fallback p : Position}
    {guard : List Comparison} (h : (derive e ps fallback).guard? p = some guard) :
    ∃ before after, ps = before ++ p :: after ∧ p ∉ before ∧
      guard = (after ++ [fallback]).map (Comparison.mk p) := by
  induction ps with
  | nil => cases h
  | cons q ps ih =>
    by_cases hq : q = p
    · subst hq
      refine ⟨[], ps, rfl, List.not_mem_nil, ?_⟩
      simpa [guard?, derive, deriveBranches, List.find?_cons] using h.symm
    · have hrest : (derive e ps fallback).guard? p = some guard := by
        simpa [guard?, derive, deriveBranches, List.find?_cons, hq] using h
      obtain ⟨before, after, rfl, hp, hguard⟩ := ih hrest
      refine ⟨q :: before, after, rfl, ?_, hguard⟩
      rw [List.mem_cons, not_or]
      exact ⟨fun hpq => hq hpq.symm, hp⟩

section Replaced
variable {e : Extremum} {p fallback : Position} {before after : List Position} {n : ℕ}
  {r : Comparison} {v : Sextuple}

/-- The guard of the faulty branch. -/
def replacedGuard (p fallback : Position) (after : List Position) (n : ℕ) (r : Comparison) :
    List Comparison := ((after ++ [fallback]).map (Comparison.mk p)).set n r

lemma mem_replacedGuard_self (p : Position) {q : Position} (r : Comparison)
    (hq : (after ++ [fallback])[n]? = some q) : r ∈ replacedGuard p fallback after n r := by
  obtain ⟨hn, -⟩ := List.getElem?_eq_some_iff.mp hq
  rw [replacedGuard]
  exact List.mem_set (by rwa [List.length_map]) r

/-- All other conjuncts of the faulty branch still compare with the other later candidates. -/
lemma mem_replacedGuard {q : Position} {c : Comparison} (hnodup : (after ++ [fallback]).Nodup)
    (hq : (after ++ [fallback])[n]? = some q) (hc : c ∈ replacedGuard p fallback after n r) :
    c = r ∨ ∃ w ∈ after ++ [fallback], w ≠ q ∧ c = ⟨p, w⟩ := by
  obtain ⟨i, hi⟩ := List.mem_iff_getElem?.mp hc
  rw [replacedGuard, List.getElem?_set] at hi
  split at hi
  · split at hi
    · exact .inl (Option.some.inj hi).symm
    · cases hi
  · next hne =>
    rw [List.getElem?_map] at hi
    obtain ⟨w, hw, rfl⟩ := Option.map_eq_some_iff.mp hi
    refine .inr ⟨w, List.mem_of_getElem? hw, ?_, rfl⟩
    rintro rfl
    obtain ⟨hn, -⟩ := List.getElem?_eq_some_iff.mp hq
    exact hne ((List.getElem?_inj hn hnodup).mp (hq.trans hw.symm))

lemma resolve_replaced_nil (e : Extremum) (p fallback : Position) (after : List Position) (n : ℕ)
    (r : Comparison) (v : Sextuple) :
    ((derive e (p :: after) fallback).replaceConjunct p n r).resolve v =
      if (Branch.mk p (replacedGuard p fallback after n r)).accepts e v = true then p
      else (derive e after fallback).resolve v := by
  simp only [replaceConjunct, derive, deriveBranches, modifyBranches, if_true]
  exact resolve_cons ..

lemma resolve_replaced_cons (e : Extremum) {p q : Position} (hq : q ≠ p) (fallback : Position)
    (ps : List Position) (n : ℕ) (r : Comparison) (v : Sextuple) :
    ((derive e (q :: ps) fallback).replaceConjunct p n r).resolve v =
      if (Branch.mk q ((ps ++ [fallback]).map (Comparison.mk q))).accepts e v = true then q
      else ((derive e ps fallback).replaceConjunct p n r).resolve v := by
  simp only [replaceConjunct, derive, deriveBranches, modifyBranches, if_neg hq]
  exact resolve_cons ..

/-- The faulty branch is taken if it accepts and every candidate before it is beaten by a later one. -/
theorem resolve_replaced_of_accepts (hp : p ∉ before)
    (hbefore : ∀ q ∈ before, ∃ z ∈ after ++ [fallback], e.prefers (v.get q) (v.get z) = false)
    (haccepts : ∀ c ∈ replacedGuard p fallback after n r, c.holds e v = true) :
    ((derive e (before ++ p :: after) fallback).replaceConjunct p n r).resolve v = p := by
  induction before with
  | nil =>
    rw [List.nil_append, resolve_replaced_nil, if_pos]
    simpa [Branch.accepts] using haccepts
  | cons q before ih =>
    rw [List.mem_cons, not_or] at hp
    obtain ⟨z, hz, hqz⟩ := hbefore q (List.mem_cons_self ..)
    have hz : z ∈ before ++ p :: after ++ [fallback] := by
      rw [List.append_assoc, List.cons_append]
      exact List.mem_append_right _ (List.mem_cons_of_mem p hz)
    rw [List.cons_append, resolve_replaced_cons e (Ne.symm hp.1), if_neg]
    · exact ih hp.2 fun s hs => hbefore s (List.mem_cons_of_mem q hs)
    · rw [accepts_derived]
      intro haccepts
      rw [haccepts z hz] at hqz
      cases hqz

/-- The candidate of the faulty branch is not taken if that branch rejects. -/
theorem resolve_replaced_of_rejects (hp : p ∉ before) (hafter : p ∉ after ++ [fallback])
    {c : Comparison} (hc : c ∈ replacedGuard p fallback after n r) (hrejects : c.holds e v = false) :
    ((derive e (before ++ p :: after) fallback).replaceConjunct p n r).resolve v ≠ p := by
  induction before with
  | nil =>
    rw [List.nil_append, resolve_replaced_nil, if_neg]
    · intro hpick
      exact hafter (hpick ▸ (lastExtremal_derive e after fallback v).mem)
    · intro haccepts
      rw [Branch.accepts, List.all_eq_true] at haccepts
      rw [haccepts c hc] at hrejects
      cases hrejects
  | cons q before ih =>
    rw [List.mem_cons, not_or] at hp
    rw [List.cons_append, resolve_replaced_cons e (Ne.symm hp.1)]
    split
    · exact Ne.symm hp.1
    · exact ih hp.2

end Replaced
end Cascade

namespace DecisionTree

def conjunct? (t : DecisionTree) (s : FaultSite) (n : ℕ) : Option Comparison :=
  ((t.cascadeAt s).guard? s.candidate).bind fun guard => guard[n]?

lemma setCascadeAt_self (t : DecisionTree) (s : FaultSite) :
    t.setCascadeAt (t.cascadeAt s) s = t := by
  cases s with
  | maxGuard p => rfl
  | minGuard m p =>
    have hmin : t.min.set m (t.min.get m) = t.min := by
      apply Slots.ext_get
      intro q
      rw [Slots.get_set]
      split
      · next hq => rw [hq]
      · rfl
    simp only [setCascadeAt, cascadeAt, hmin]

/-- An accepted fault addresses a conjunct, and changes the cascade of its site. -/
theorem inject_eq_ok {t t' : DecisionTree} {f : Fault} (h : t.inject f = .ok t') :
    ∃ guard, (t.cascadeAt f.site).guard? f.site.candidate = some guard ∧
      f.conjunct.toNat < guard.length ∧
      t' = { t.setCascadeAt ((t.cascadeAt f.site).replaceConjunct f.site.candidate
        f.conjunct.toNat f.replacement) f.site with fault := some f } := by
  simp only [inject] at h
  split at h
  · cases h
  · next guard hguard =>
    split at h
    · next hlt =>
      cases h
      exact ⟨guard, hguard, hlt, rfl⟩
    · cases h

lemma exists_conjunct_of_inject {t t' : DecisionTree} {f : Fault} (h : t.inject f = .ok t') :
    ∃ original, t.conjunct? f.site f.conjunct.toNat = some original := by
  obtain ⟨guard, hguard, hlt, -⟩ := inject_eq_ok h
  exact ⟨guard[f.conjunct.toNat], by
    rw [conjunct?, hguard, Option.bind_some, List.getElem?_eq_getElem hlt]⟩

/-- A fault whose replacement is the conjunct itself leaves all answers alone. -/
theorem select_inject_of_conjunct_eq {t t' : DecisionTree} {f : Fault} (h : t.inject f = .ok t')
    (hsame : t.conjunct? f.site f.conjunct.toNat = some f.replacement) (v : Sextuple) :
    t'.select v = t.select v := by
  obtain ⟨guard, hguard, -, rfl⟩ := inject_eq_ok h
  rw [conjunct?, hguard, Option.bind_some] at hsame
  rw [Cascade.replaceConjunct_eq_self hguard hsame, setCascadeAt_self]
  rfl

end DecisionTree
end VerifierBench
