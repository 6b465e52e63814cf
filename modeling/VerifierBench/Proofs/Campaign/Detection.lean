import VerifierBench.Proofs.Campaign.Faultless
import VerifierBench.Proofs.Source.Grid
import VerifierBench.Proofs.Tree.Injection

/-! Every fault that really changes a conjunct is detected by a sweep over four words. Two inputs
decide: one on which the changed guard should reject because its missing comparison fails, and one on
which it should accept because the candidate is strictly best. One of them is answered wrongly. -/
namespace VerifierBench

/-- Smaller ranks are better: the words of a sextuple compare as the ranks of their positions. -/
def RankedBy (e : Extremum) (v : Sextuple) (rank : Position → ℕ) : Prop :=
  ∀ p q, e.prefers (v.get p) (v.get q) = decide (rank p < rank q)

/-- The position `q` is best and `p` comes next; a position that is held back comes last. -/
def secondRank (p q : Position) (last : Option Position) (z : Position) : ℕ :=
  if z = q then 0 else if z = p then 1 else if last = some z then 3 else 2

/-- The position `p` is best; a position that is held back comes last. -/
def firstRank (p : Position) (last : Option Position) (z : Position) : ℕ :=
  if z = p then 0 else if last = some z then 3 else 1

/-- A comparison other than `p` with `q` holds where `p` is second to `q`, or fails where `p` is
best. -/
lemma rank_separates {p q : Position} {last : Option Position} {r : Comparison}
    (hp : last ≠ some p) (hq : last ≠ some q) (hr : r ≠ ⟨p, q⟩) :
    secondRank p q last r.lhs < secondRank p q last r.rhs ∨
      ¬ firstRank p last r.lhs < firstRank p last r.rhs := by
  obtain ⟨x, y⟩ := r
  have hxy : x = p → y ≠ q := by
    rintro rfl rfl
    exact hr rfl
  grind [secondRank, firstRank]

lemma rank_bounds {p q : Position} {last : Option Position} {rank : Position → ℕ}
    (hp : last ≠ some p) (hq : last ≠ some q)
    (hrank : rank ∈ [secondRank p q last, firstRank p last]) (z : Position) :
    rank z ≤ 3 ∧ (rank z = 3 ↔ last = some z) := by
  simp only [List.mem_cons, List.not_mem_nil, or_false] at hrank
  rcases hrank with rfl | rfl <;> grind [secondRank, firstRank]

namespace Cascade

/-- On one of the two inputs, a derived cascade with a conjunct replaced misses a better position. -/
theorem exists_missed {e : Extremum} {p q fallback : Position} {before after : List Position}
    {n : ℕ} {r : Comparison} {last : Option Position}
    (hnodup : (before ++ p :: (after ++ [fallback])).Nodup)
    (hlast : ∀ z ∈ before ++ p :: (after ++ [fallback]), last ≠ some z)
    (hq : (after ++ [fallback])[n]? = some q) (hr : r ≠ ⟨p, q⟩) :
    ∃ rank ∈ [secondRank p q last, firstRank p last], ∀ v, RankedBy e v rank → ∃ best,
      e.prefers (v.get best)
        (v.get (((derive e (before ++ p :: after) fallback).replaceConjunct p n r).resolve v)) =
          true := by
  obtain ⟨-, hlater, hdisjoint⟩ := List.nodup_append.mp hnodup
  obtain ⟨hp, hlater⟩ := List.nodup_cons.mp hlater
  have hpbefore : p ∉ before := fun h => hdisjoint p h p (List.mem_cons_self ..) rfl
  have hqlater := List.mem_of_getElem? hq
  have hqp : q ≠ p := fun h => hp (h ▸ hqlater)
  have hplast := hlast p (by simp)
  have hqlast := hlast q (List.mem_append_right _ (List.mem_cons_of_mem p hqlater))
  rcases rank_separates hplast hqlast hr with hholds | hfails
  · refine ⟨secondRank p q last, by simp, fun v hv => ⟨q, ?_⟩⟩
    have hbeaten : ∀ z ∈ before, ∃ w ∈ after ++ [fallback],
        e.prefers (v.get z) (v.get w) = false := by
      intro z _
      exact ⟨q, hqlater, by simp [hv z q, secondRank]⟩
    have haccepts : ∀ c ∈ replacedGuard p fallback after n r, c.holds e v = true := by
      intro c hc
      rcases mem_replacedGuard hlater hq hc with rfl | ⟨w, hw, hwq, rfl⟩
      · rw [Comparison.holds, hv, decide_eq_true hholds]
      · have hwp : w ≠ p := fun h => hp (h ▸ hw)
        rw [Comparison.holds, hv]
        grind [secondRank]
    rw [resolve_replaced_of_accepts hpbefore hbeaten haccepts, hv]
    simp [secondRank, hqp.symm]
  · refine ⟨firstRank p last, by simp, fun v hv => ⟨p, ?_⟩⟩
    have hrejects : r.holds e v = false := by rw [Comparison.holds, hv, decide_eq_false hfails]
    have hpick := resolve_replaced_of_rejects hpbefore hp (mem_replacedGuard_self p r hq) hrejects
    rw [hv, decide_eq_true_eq]
    grind [firstRank]

end Cascade

/-- The sextuple over four words from `low` on whose positions are ranked as given. -/
def ranked (e : Extremum) (low : Int32) (rank : Position → ℕ) : Sextuple :=
  .ofFn fun p => .ofInt (low.toInt + (match e with | .max => 3 - rank p | .min => rank p : ℕ))

section Ranked
variable {low high : Int32} {rank : Position → ℕ}

lemma toInt_ranked (e : Extremum) (hwidth : low.toInt + 3 ≤ high.toInt) (hrank : ∀ p, rank p ≤ 3)
    (p : Position) : ((ranked e low rank).get p).toInt =
      low.toInt + (match e with | .max => 3 - rank p | .min => rank p : ℕ) := by
  have hl := low.le_toInt
  have hu := high.toInt_lt
  have hp := hrank p
  rw [ranked, Slots.get_ofFn]
  apply toInt_ofInt_of_isInt32
  rw [isInt32_iff]
  cases e <;> simp only <;> omega

lemma rankedBy_ranked (e : Extremum) (hwidth : low.toInt + 3 ≤ high.toInt)
    (hrank : ∀ p, rank p ≤ 3) : RankedBy e (ranked e low rank) rank := by
  intro p q
  have hp := hrank p
  have hq := hrank q
  have hvp := toInt_ranked e hwidth hrank p
  have hvq := toInt_ranked e hwidth hrank q
  cases e <;> simp only [Extremum.prefers, Int32.lt_iff_toInt_lt, hvp, hvq, decide_eq_decide] <;>
    omega

lemma contains_ranked (e : Extremum) (hwidth : low.toInt + 3 ≤ high.toInt)
    (hrank : ∀ p, rank p ≤ 3) : (Grid.between low high).Contains (ranked e low rank) := by
  intro p
  have hp := hrank p
  have hv := toInt_ranked e hwidth hrank p
  simp only [Grid.between, Int32.le_iff_toInt_le, hv]
  cases e <;> simp only <;> omega

end Ranked

namespace FaultSite

/-- The maximum that has to be chosen before the guard at a site is looked at. -/
def chosen : FaultSite → Option Position
  | maxGuard _ => none
  | minGuard m _ => some m

/-- The positions that the cascade of a site decides between. -/
def contenders : FaultSite → List Position
  | maxGuard _ => Position.all
  | minGuard m _ => DecisionTree.others m

lemma chosen_ne_some {s : FaultSite} {z : Position} (hz : z ∈ s.contenders) :
    s.chosen ≠ some z := by
  cases s with
  | maxGuard p => simp [chosen]
  | minGuard m p =>
    have hne := DecisionTree.mem_others.mp hz
    simpa [chosen] using hne.symm

lemma contenders_nodup (s : FaultSite) : s.contenders.Nodup := by
  have hlt : ∀ {ps : List Position}, (ps.Pairwise fun p q => p.index < q.index) → ps.Nodup :=
    fun h => h.imp fun hpq heq => by simp [heq] at hpq
  cases s with
  | maxGuard p => exact hlt DecisionTree.pairwise_all
  | minGuard m p => exact hlt (DecisionTree.pairwise_others m)

lemma contenders_ne_nil (s : FaultSite) : s.contenders ≠ [] := by
  cases s with
  | maxGuard p => exact List.cons_ne_nil _ _
  | minGuard m p => exact DecisionTree.others_ne_nil m

end FaultSite

namespace DecisionTree

lemma cascadeAt_derived (s : FaultSite) :
    derived.cascadeAt s = deriveOver s.extremum s.contenders := by
  cases s with
  | maxGuard p => rfl
  | minGuard m p => exact derived_min m

/-- A tree violates the postcondition where the cascade of a reached site misses a better position. -/
lemma violates_of_missed {t : DecisionTree} {c : Cascade} {s : FaultSite} {x : Option Fault}
    {v : Sextuple} {best : Position} (hreached : ∀ m, s.chosen = some m → t.max.resolve v = m)
    (hbest : s.extremum.prefers (v.get best) (v.get (c.resolve v)) = true) :
    DecisionTree.violates { t.setCascadeAt c s with fault := x } v = true := by
  rw [← Bool.not_eq_false, violates_eq_false_iff]
  intro hholds
  have hb := hholds best
  cases s with
  | maxGuard p =>
    have hmissed : v.get (c.resolve v) < v.get best := by
      simpa [FaultSite.extremum, Extremum.prefers] using hbest
    exact absurd hb.1 (Int32.not_le.mpr hmissed)
  | minGuard m p =>
    have hm : t.max.resolve v = m := hreached m rfl
    have hleaf : (DecisionTree.select { t.setCascadeAt c (.minGuard m p) with fault := x } v).leaf.min
        = c.resolve v := by
      simp [select, setCascadeAt, hm]
    have hmissed : v.get best < v.get (c.resolve v) := by
      simpa [FaultSite.extremum, Extremum.prefers] using hbest
    rw [select_result_min, hleaf] at hb
    exact absurd hb.2 (Int32.not_le.mpr hmissed)

/-- The intact cascade for the maximum leads to a site whose maximum is ranked strictly worst. -/
lemma resolve_max_ranked {low high : Int32} {rank : Position → ℕ} {s : FaultSite}
    (hwidth : low.toInt + 3 ≤ high.toInt)
    (hrank : ∀ z, rank z ≤ 3 ∧ (rank z = 3 ↔ s.chosen = some z)) :
    ∀ m, s.chosen = some m → derived.max.resolve (ranked s.extremum low rank) = m := by
  intro m hm
  cases s with
  | maxGuard p => cases hm
  | minGuard m' p =>
    apply (lastExtremal_max _).eq_of_prefers m.mem_all
    intro z _ hz
    have hword : ∀ z, ((ranked .min low rank).get z).toInt = low.toInt + rank z :=
      toInt_ranked .min hwidth fun z => (hrank z).1
    have hlast : rank m = 3 := (hrank m).2.mpr hm
    have hother : rank z ≠ 3 := by
      intro h
      rw [(hrank z).2, hm] at h
      exact hz (Option.some.inj h).symm
    have hle := (hrank z).1
    simp only [Extremum.prefers, FaultSite.extremum, Int32.lt_iff_toInt_lt, hword,
      decide_eq_true_eq]
    omega

/-- A fault that changes a conjunct is seen on some sextuple over any four words in a row. -/
theorem exists_violates_inject {t : DecisionTree} {f : Fault} (h : derived.inject f = .ok t)
    (hdiffers : derived.conjunct? f.site f.conjunct.toNat ≠ some f.replacement) {low high : Int32}
    (hwidth : low.toInt + 3 ≤ high.toInt) :
    ∃ v, (Grid.between low high).Contains v ∧ t.violates v = true := by
  obtain ⟨guard, hguard, hlt, rfl⟩ := inject_eq_ok h
  rw [conjunct?, hguard, Option.bind_some] at hdiffers
  rw [cascadeAt_derived, deriveOver] at hguard
  obtain ⟨before, after, hps, -, rfl⟩ := Cascade.guard?_derive hguard
  generalize hfallback : f.site.contenders.getLastD .f = fallback at *
  have hlist : f.site.contenders = before ++ f.site.candidate :: (after ++ [fallback]) := by
    rw [← dropLast_append_getLastD f.site.contenders_ne_nil, hps, hfallback, List.append_assoc,
      List.cons_append]
  have hlast : ∀ z ∈ before ++ f.site.candidate :: (after ++ [fallback]),
      f.site.chosen ≠ some z := by
    rw [← hlist]
    exact fun z hz => FaultSite.chosen_ne_some hz
  have hn : f.conjunct.toNat < (after ++ [fallback]).length := by rwa [List.length_map] at hlt
  obtain ⟨q, hq⟩ : ∃ q, (after ++ [fallback])[f.conjunct.toNat]? = some q :=
    ⟨_, List.getElem?_eq_getElem hn⟩
  have hr : f.replacement ≠ ⟨f.site.candidate, q⟩ := by
    rintro hr
    rw [List.getElem?_map, hq, hr] at hdiffers
    exact hdiffers rfl
  obtain ⟨rank, hrank, hmissed⟩ := Cascade.exists_missed (e := f.site.extremum)
    (hlist ▸ f.site.contenders_nodup) hlast hq hr
  have hbounds := rank_bounds (hlast _ (by simp))
    (hlast q (List.mem_append_right _ (List.mem_cons_of_mem _ (List.mem_of_getElem? hq)))) hrank
  have hle := fun z => (hbounds z).1
  have hranked : RankedBy f.site.extremum (ranked f.site.extremum low rank) rank :=
    rankedBy_ranked _ hwidth hle
  obtain ⟨best, hbest⟩ := hmissed _ hranked
  refine ⟨ranked f.site.extremum low rank, contains_ranked _ hwidth hle, ?_⟩
  rw [cascadeAt_derived, deriveOver, hps, hfallback]
  exact violates_of_missed (resolve_max_ranked hwidth hbounds) hbest

/-- A sweep over four words or more reports violations exactly for the faults that change a conjunct;
its counter of violations is a 64-bit word. A fault that changes none is seen on no sextuple. -/
theorem sweep_detects_fault {t : DecisionTree} {f : Fault} (h : derived.inject f = .ok t)
    {low high : Int32} (hwidth : 3 ≤ high.toInt - low.toInt)
    (hsize : (Grid.between low high).checkedSize.isSome = true) {μ : Type} (sink : Sink μ)
    (failFast : Bool) (m : μ) :
    ∃ original, derived.conjunct? f.site f.conjunct.toNat = some original ∧
      (0 < (t.sweep sink failFast (.ofGrid (.between low high)) m).1.violations ↔
        f.replacement ≠ original) ∧
      (t.sweep sink failFast (.ofGrid (.between low high)) m).1.violations < UInt64.size ∧
      (f.replacement = original → t.Faultless) := by
  obtain ⟨original, horiginal⟩ := exists_conjunct_of_inject h
  have hfaultless : f.replacement = original → t.Faultless := by
    rintro rfl v
    rw [violates, select_inject_of_conjunct_eq h horiginal]
    exact faultless_derived v
  refine ⟨original, horiginal, ?_, ?_, hfaultless⟩
  · rw [violations_sweep_pos_iff]
    constructor
    · rintro ⟨v, -, hv⟩ hsame
      rw [hfaultless hsame v] at hv
      cases hv
    · intro hdiffers
      have hconjunct : derived.conjunct? f.site f.conjunct.toNat ≠ some f.replacement := by
        rw [horiginal]
        exact fun hsame => hdiffers (Option.some.inj hsame).symm
      have hwidth : low.toInt + 3 ≤ high.toInt := by omega
      obtain ⟨v, hcontains, hv⟩ := exists_violates_inject h hconjunct hwidth
      exact ⟨v, Supply.mem_ofGrid_between.mpr hcontains, hv⟩
  · have hle := t.violations_sweep_le sink failFast (.ofGrid (.between low high)) m
    rw [Supply.length_ofGrid_between] at hle
    have hfits : (Grid.between low high).size < UInt64.size := by
      by_contra hlarge
      simp [Grid.checkedSize, hlarge] at hsize
    omega

/-- The published fault is found over the words from zero to three. -/
theorem sweep_detects_ko2 :
    ∃ t, derived.inject .ko2 = .ok t ∧ 3 ≤ (3 : Int32).toInt - (0 : Int32).toInt ∧
      (Grid.between 0 3).checkedSize.isSome = true ∧
      0 < (t.sweep Sink.recorder true (.ofGrid (.between 0 3)) #[]).1.violations := by
  obtain ⟨t, h⟩ : ∃ t, derived.inject .ko2 = .ok t := ⟨_, rfl⟩
  have hwidth : 3 ≤ (3 : Int32).toInt - (0 : Int32).toInt := by decide
  have hsize : (Grid.between 0 3).checkedSize.isSome = true := by decide
  obtain ⟨original, horiginal, hiff, -⟩ :=
    sweep_detects_fault h hwidth hsize Sink.recorder true #[]
  have hknown : derived.conjunct? Fault.ko2.site Fault.ko2.conjunct.toNat = some ⟨.a, .d⟩ := by
    decide
  cases hknown.symm.trans horiginal
  exact ⟨t, h, hwidth, hsize, hiff.mpr (by decide)⟩

end DecisionTree
end VerifierBench
