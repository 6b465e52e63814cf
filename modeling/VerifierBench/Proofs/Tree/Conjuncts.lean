import VerifierBench.Proofs.Tree.Attempts
import VerifierBench.Proofs.Tree.Refusal

/-! Trees as tables of conjuncts. A fault that is put in writes one entry and keeps all others, so after
several faults each conjunct is the one written last, and faults at different places commute. Together
with the shape the conjuncts determine all seven cascades. -/
namespace VerifierBench

namespace Cascade
variable {c d : Cascade}

lemma guard?_replaceConjunct (c : Cascade) (p q : Position) (n : ℕ) (r : Comparison) :
    (c.replaceConjunct p n r).guard? q =
      if q = p then (c.guard? p).map fun guard => guard.set n r else c.guard? q := by
  simp only [guard?, replaceConjunct]
  induction c.branches with
  | nil => simp [modifyBranches]
  | cons b bs ih =>
    by_cases hb : b.candidate = p
    · by_cases hq : q = p
      · subst hq
        simp [modifyBranches, hb]
      · simp [modifyBranches, hb, hq, Ne.symm hq]
    · by_cases hq : b.candidate = q
      · subst hq
        simp [modifyBranches, hb]
      · simpa [modifyBranches, hb, hq] using ih

/-- Candidates that are named only once have their own branches found. -/
lemma branches_ext {bs es : List Branch} (hnodup : (bs.map Branch.candidate).Nodup)
    (hc : bs.map Branch.candidate = es.map Branch.candidate)
    (h : ∀ p, (bs.find? fun b => b.candidate = p).map Branch.guard =
      (es.find? fun b => b.candidate = p).map Branch.guard) : bs = es := by
  induction bs generalizing es with
  | nil => exact (List.map_eq_nil_iff.mp hc.symm).symm
  | cons b bs ih =>
    cases es with
    | nil => cases hc
    | cons e es =>
      obtain ⟨hhead, htail⟩ := List.cons.inj hc
      obtain ⟨hfresh, hnodup⟩ := List.nodup_cons.mp hnodup
      have hguard : b.guard = e.guard := by simpa [hhead] using h b.candidate
      have hbe : b = e := by
        cases b
        cases e
        exact congr (congrArg Branch.mk hhead) hguard
      subst hbe
      congr 1
      refine ih hnodup htail fun p => ?_
      by_cases hp : b.candidate = p
      · -- No further branch is for this candidate.
        subst hp
        have hnone : ∀ {fs : List Branch}, b.candidate ∉ fs.map Branch.candidate →
            (fs.find? fun k => k.candidate = b.candidate) = none := by
          intro fs hfs
          simpa [List.find?_eq_none] using hfs
        rw [hnone hfresh, hnone (htail ▸ hfresh)]
      · simpa [hp] using h p

/-- Guards of the same lengths with the same conjuncts are the same. -/
lemma SameShape.eq_of_conjuncts (h : c.SameShape d)
    (hnodup : (c.branches.map Branch.candidate).Nodup)
    (hconjuncts : ∀ p (n : ℕ), ((c.guard? p).bind fun guard => guard[n]?) =
      (d.guard? p).bind fun guard => guard[n]?) : c = d := by
  have hguard : ∀ p, c.guard? p = d.guard? p := by
    intro p
    have hlength := h.guard?_length p
    have hentries := hconjuncts p
    cases hcp : c.guard? p with
    | none =>
      rw [hcp] at hlength
      cases hdp : d.guard? p with
      | none => rfl
      | some guard => simp [hdp] at hlength
    | some guard =>
      rw [hcp] at hlength
      cases hdp : d.guard? p with
      | none => simp [hdp] at hlength
      | some guard' =>
        rw [hcp, hdp] at hentries
        exact congrArg some (List.ext_getElem? hentries)
  have hbranches := branches_ext hnodup h.candidates hguard
  cases c
  cases d
  exact (mk.injEq ..).mpr ⟨h.extremum, hbranches, h.fallback⟩

end Cascade

namespace Fault

/-- The fault replaces the conjunct at this place. -/
def Addresses (f : Fault) (s : FaultSite) (n : ℕ) : Prop := f.site = s ∧ f.conjunct.toNat = n

instance (f : Fault) (s : FaultSite) (n : ℕ) : Decidable (f.Addresses s n) :=
  inferInstanceAs (Decidable (f.site = s ∧ f.conjunct.toNat = n))

/-- There is a guard at the site, and it has the conjunct. -/
def Acceptable (f : Fault) : Prop := f.site.Guarded ∧ f.conjunct.toNat < f.site.rivals.length

end Fault

namespace FaultSite

instance (s : FaultSite) : Decidable s.Guarded :=
  inferInstanceAs (Decidable (s.chosen ≠ some s.candidate ∧
    s.contenders.getLast? ≠ some s.candidate))

lemma eq_of_chosen_candidate {s s' : FaultSite} (hchosen : s.chosen = s'.chosen)
    (hcandidate : s.candidate = s'.candidate) : s = s' := by
  cases s <;> cases s' <;> simp_all [chosen, candidate]

end FaultSite

namespace DecisionTree
variable {t u : DecisionTree} {f g : Fault} {fs : List Fault}

/-- Sites share a cascade if the same maximum has to be chosen before. -/
lemma cascadeAt_congr (t : DecisionTree) {s s' : FaultSite} (h : s.chosen = s'.chosen) :
    t.cascadeAt s = t.cascadeAt s' := by
  cases s <;> cases s' <;> simp_all [cascadeAt, FaultSite.chosen]

lemma cascadeAt_setCascadeAt (t : DecisionTree) (c : Cascade) (s s' : FaultSite) (x : Option Fault) :
    cascadeAt { t.setCascadeAt c s with fault := x } s' =
      if s'.chosen = s.chosen then c else t.cascadeAt s' := by
  cases s <;> cases s' <;> simp [cascadeAt, setCascadeAt, FaultSite.chosen]

/-- What putting in a fault does: it writes the conjunct it addresses. -/
structure Writes (t : DecisionTree) (f : Fault) (u : DecisionTree) : Prop where
  shape : u.SameShape t
  conjunct : ∀ s n, u.conjunct? s n = if f.Addresses s n then some f.replacement
    else t.conjunct? s n
  fault : u.fault = some f

theorem writes_inject (h : t.inject f = .ok u) : t.Writes f u := by
  refine ⟨sameShape_inject h, fun s n => ?_, fault_inject h⟩
  obtain ⟨guard, hguard, hlt, rfl⟩ := inject_eq_ok h
  rw [conjunct?, conjunct?, cascadeAt_setCascadeAt]
  by_cases hchosen : s.chosen = f.site.chosen
  · rw [if_pos hchosen, Cascade.guard?_replaceConjunct]
    by_cases hcandidate : s.candidate = f.site.candidate
    · obtain rfl := FaultSite.eq_of_chosen_candidate hchosen hcandidate
      simp only [if_true, hguard, Option.map_some, Option.bind_some, List.getElem?_set, hlt,
        Fault.Addresses, true_and]
    · have hother : ¬ f.Addresses s n := fun hsame => hcandidate (hsame.1 ▸ rfl)
      rw [if_neg hcandidate, if_neg hother, t.cascadeAt_congr hchosen]
  · have hother : ¬ f.Addresses s n := fun hsame => hchosen (hsame.1 ▸ rfl)
    rw [if_neg hchosen, if_neg hother]

/-- The replacement that was written last at a place. -/
def lastWritten (fs : List Fault) (s : FaultSite) (n : ℕ) : Option Comparison :=
  (fs.reverse.find? fun f => f.Addresses s n).map Fault.replacement

lemma lastWritten_cons (f : Fault) (fs : List Fault) (s : FaultSite) (n : ℕ) :
    lastWritten (f :: fs) s n =
      (lastWritten fs s n).or (if f.Addresses s n then some f.replacement else none) := by
  rw [lastWritten, lastWritten, List.reverse_cons, List.find?_append, Option.map_or]
  by_cases h : f.Addresses s n <;> simp [h]

theorem conjunct?_injectAll (h : t.injectAll fs = .ok u) (s : FaultSite) (n : ℕ) :
    u.conjunct? s n = (lastWritten fs s n).or (t.conjunct? s n) := by
  induction fs generalizing t with
  | nil =>
    cases h
    rfl
  | cons f fs ih =>
    obtain ⟨next, hnext, hrest⟩ := exists_of_bind_eq_ok h
    rw [ih hrest, (writes_inject hnext).conjunct, lastWritten_cons, Option.or_assoc]
    split <;> rfl

/-- Trees of the derived shape with the same conjuncts have the same cascades. -/
theorem SameShape.eq_of_conjuncts (ht : t.SameShape derived) (hu : u.SameShape derived)
    (h : ∀ s n, u.conjunct? s n = t.conjunct? s n) : u.max = t.max ∧ u.min = t.min := by
  have hshape := hu.trans ht.symm
  have hnodup : ∀ s, ((u.cascadeAt s).branches.map Branch.candidate).Nodup := by
    intro s
    rw [(hu.cascadeAt s).candidates, cascadeAt_derived, deriveOver, Cascade.derive,
      Cascade.deriveBranches_candidates]
    exact s.contenders_nodup.sublist (List.dropLast_sublist _)
  constructor
  · exact hshape.max.eq_of_conjuncts (hnodup (.maxGuard .a)) fun p n => h (.maxGuard p) n
  · apply Slots.ext_get
    intro m
    exact (hshape.min m).eq_of_conjuncts (hnodup (.minGuard m .a)) fun p n => h (.minGuard m p) n

section Derived

lemma outcomes_cascadeAt (ht : t.SameShape derived) (s : FaultSite) :
    (t.cascadeAt s).outcomes = s.contenders := by
  rw [(ht.cascadeAt s).outcomes, cascadeAt_derived, deriveOver, Cascade.outcomes_derive,
    dropLast_append_getLastD s.contenders_ne_nil]

lemma guardLength?_eq (ht : t.SameShape derived) (s : FaultSite) :
    t.guardLength? s = if s.Guarded then some s.rivals.length else none := by
  rw [ht.guardLength?_eq]
  split
  · next h => exact guardLength?_of_guarded h
  · next h => exact guardLength?_of_not_guarded h

/-- A candidate is compared with its rivals in their order. -/
lemma conjunct?_derived (s : FaultSite) (n : ℕ) : derived.conjunct? s n =
    if s.Guarded then s.rivals[n]?.map (Comparison.mk s.candidate) else none := by
  rw [conjunct?, cascadeAt_derived, deriveOver, Cascade.guard?_derive_eq]
  simp only [← s.guarded_iff, dropLast_append_getLastD s.contenders_ne_nil]
  split
  · rw [Option.bind_some, List.getElem?_map, FaultSite.rivals]
  · rfl

end Derived

/-- Faults that were put in before change nothing about which ones are accepted. -/
lemma exists_inject_iff (ht : t.SameShape derived) (f : Fault) :
    (∃ u, t.inject f = .ok u) ↔ f.Acceptable := by
  have hrefused : ∀ cause, t.inject f = .error cause ↔ f.Refused cause := fun cause =>
    ht.inject_eq_error_iff.trans inject_derived_eq_error_iff
  constructor
  · rintro ⟨u, hu⟩
    by_contra hnot
    have hcause : ∃ cause, f.Refused cause := by
      by_cases hguarded : f.site.Guarded
      · exact ⟨_, .pastEnd hguarded (Nat.not_lt.mp fun hlt => hnot ⟨hguarded, hlt⟩)⟩
      · exact ⟨_, .unguarded hguarded⟩
    obtain ⟨cause, hcause⟩ := hcause
    cases hu.symm.trans ((hrefused cause).mpr hcause)
  · rintro ⟨hguarded, hlt⟩
    cases hu : t.inject f with
    | ok u => exact ⟨u, rfl⟩
    | error cause =>
      cases (hrefused cause).mp hu with
      | unguarded hunguarded => exact absurd hguarded hunguarded
      | pastEnd _ hpast => exact absurd hlt (Nat.not_lt.mpr hpast)

/-- At different places it does not matter which fault comes first, but the last one is remembered. -/
theorem injectAll_comm (ht : t.SameShape derived) (hf : f.Acceptable) (hg : g.Acceptable)
    (hplace : ¬ f.Addresses g.site g.conjunct.toNat) :
    ∃ u, t.injectAll [f, g] = .ok u ∧ u.fault = some g ∧
      t.injectAll [g, f] = .ok { u with fault := some f } := by
  have hpair : ∀ {k l : Fault}, k.Acceptable → l.Acceptable →
      ∃ u, t.injectAll [k, l] = .ok u ∧ u.SameShape derived := by
    intro k l hk hl
    obtain ⟨next, hnext⟩ := (exists_inject_iff ht k).mpr hk
    have hshape := (sameShape_inject hnext).trans ht
    obtain ⟨u, hu⟩ := (exists_inject_iff hshape l).mpr hl
    refine ⟨u, ?_, (sameShape_inject hu).trans hshape⟩
    simp only [injectAll, hnext, bind, Except.bind, hu]
  obtain ⟨u, hu, hushape⟩ := hpair hf hg
  obtain ⟨w, hw, hwshape⟩ := hpair hg hf
  have hsame : ∀ s n, w.conjunct? s n = u.conjunct? s n := by
    intro s n
    rw [conjunct?_injectAll hu, conjunct?_injectAll hw]
    simp only [lastWritten_cons]
    by_cases hfs : f.Addresses s n
    · have hgs : ¬ g.Addresses s n := by
        rintro ⟨rfl, rfl⟩
        exact hplace hfs
      simp [hfs, hgs, lastWritten]
    · simp [hfs, lastWritten]
  obtain ⟨hmax, hmin⟩ := hushape.eq_of_conjuncts hwshape hsame
  have hfault : w.fault = some f := fault_injectAll hw
  refine ⟨u, hu, fault_injectAll hu, hw.trans (congrArg Except.ok ?_)⟩
  cases w
  exact (mk.injEq ..).mpr ⟨hmax, hmin, hfault⟩

/-- A tree with faults is a table of conjuncts. Each holds what was written to it last, or what it is in
the derived tree, and there is nothing else to the cascades. One more fault is accepted exactly if it
addresses a conjunct; it writes this one and keeps all others, and faults at different places commute. -/
theorem conjuncts_after_faults (ht : derived.injectAll fs = .ok t) :
    (∀ s, (t.cascadeAt s).outcomes = s.contenders ∧
      (t.guardLength? s = if s.Guarded then some s.rivals.length else none) ∧
      ∀ n, t.conjunct? s n = (lastWritten fs s n).or (derived.conjunct? s n) ∧
        derived.conjunct? s n =
          if s.Guarded then s.rivals[n]?.map (Comparison.mk s.candidate) else none) ∧
    (∀ gs u, derived.injectAll gs = .ok u → (∀ s n, u.conjunct? s n = t.conjunct? s n) →
      u.max = t.max ∧ u.min = t.min) ∧
    (∀ f, ((∃ u, t.inject f = .ok u) ↔ f.Acceptable) ∧
      (∀ cause, t.inject f = .error cause ↔ f.Refused cause) ∧
      ∀ u, t.inject f = .ok u → t.Writes f u) ∧
    ∀ f g, f.Acceptable → g.Acceptable → ¬ f.Addresses g.site g.conjunct.toNat →
      ∃ u, t.injectAll [f, g] = .ok u ∧ u.fault = some g ∧
        t.injectAll [g, f] = .ok { u with fault := some f } := by
  have hshape := sameShape_injectAll ht
  refine ⟨fun s => ⟨outcomes_cascadeAt hshape s, guardLength?_eq hshape s, fun n => ?_⟩, ?_,
    fun f => ⟨exists_inject_iff hshape f, fun cause => ?_, fun u => writes_inject⟩, ?_⟩
  · exact ⟨conjunct?_injectAll ht s n, conjunct?_derived s n⟩
  · intro gs u hu
    exact hshape.eq_of_conjuncts (sameShape_injectAll hu)
  · exact hshape.inject_eq_error_iff.trans inject_derived_eq_error_iff
  · intro f g hf hg
    exact injectAll_comm hshape hf hg

/-- After the published fault and another one at the same place only the second is left, and the
conjunct beside it is still the derived one. -/
theorem conjuncts_after_ko2_overwritten :
    ∃ t, derived.injectAll [.ko2, ⟨.maxGuard .a, 2, ⟨.c, .e⟩⟩] = .ok t ∧
      t.conjunct? (.maxGuard .a) 2 = some ⟨.c, .e⟩ ∧
      t.conjunct? (.maxGuard .a) 1 = some ⟨.a, .c⟩ := by
  obtain ⟨t, ht⟩ : ∃ t, derived.injectAll [.ko2, ⟨.maxGuard .a, 2, ⟨.c, .e⟩⟩] = .ok t := ⟨_, rfl⟩
  obtain ⟨hsites, -⟩ := conjuncts_after_faults ht
  have hconjunct := fun n => ((hsites (.maxGuard .a)).2.2 n).1
  exact ⟨t, ht, (hconjunct 2).trans (by decide), (hconjunct 1).trans (by decide)⟩

end DecisionTree
end VerifierBench
