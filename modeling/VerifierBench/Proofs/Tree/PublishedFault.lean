import VerifierBench.Proofs.Campaign.Sweep
import VerifierBench.Proofs.Tree.Injection

/-! All that the published fault does. The guard of `a` accepts no sextuple that it should reject, because
a word that beats `b` beats what `b` beats. It rejects some that it should accept; then the greatest of the
other words is taken for the maximum, and the minimum is still right. -/
namespace VerifierBench

/-- The word of `a` is strictly greatest, and that of `b` is not above that of `d`. -/
def Sextuple.ExposesKo2 (v : Sextuple) : Prop :=
  (v.b < v.a ∧ v.c < v.a ∧ v.d < v.a ∧ v.e < v.a ∧ v.f < v.a) ∧ v.b ≤ v.d

lemma Sextuple.exposesKo2_iff (v : Sextuple) :
    v.ExposesKo2 ↔ (∀ p, p ≠ .a → v.get p < v.get .a) ∧ v.get .b ≤ v.get .d := by
  constructor
  · rintro ⟨⟨hb, hc, hd, he, hf⟩, hbd⟩
    refine ⟨fun p hp => ?_, hbd⟩
    cases p with
    | a => exact absurd rfl hp
    | b => exact hb
    | c => exact hc
    | d => exact hd
    | e => exact he
    | f => exact hf
  · rintro ⟨hlt, hbd⟩
    exact ⟨⟨hlt .b (by decide), hlt .c (by decide), hlt .d (by decide), hlt .e (by decide),
      hlt .f (by decide)⟩, hbd⟩

/-- An answer below one word only, and above none, fails the conjunct of that position only. -/
lemma Oracle.failedConjuncts_eq_singleton {v : Sextuple} {r : Extrema} {p : Position}
    (habove : r.max < v.get p) (hle : ∀ q, q ≠ p → v.get q ≤ r.max) (hmin : ∀ q, r.min ≤ v.get q) :
    failedConjuncts v r = ["max >= " ++ p.name] := by
  have hmax : Position.all.filter (fun q => decide (r.max < v.get q)) =
      Position.all.filter fun q => decide (q = p) := by
    apply List.filter_congr
    intro q _
    by_cases hq : q = p
    · subst hq
      simp only [habove, decide_true]
    · simp only [hq, Int32.not_lt.mpr (hle q hq), decide_false]
  have hnone : Position.all.filter (fun q => decide (v.get q < r.min)) = [] := by
    rw [List.filter_eq_nil_iff]
    intro q _
    simpa using Int32.not_lt.mpr (hmin q)
  rw [failedConjuncts, hmax, hnone]
  cases p <;> rfl

namespace DecisionTree
variable {t : DecisionTree} {v : Sextuple} {p : Position}

/-- Cascades as in the derived tree find the minimum whatever is taken for the maximum, as long as one
of the other words is not greater. -/
lemma isLeast_min (hmin : t.min = derived.min) (hp : p ≠ (t.select v).leaf.max)
    (hle : v.get p ≤ v.get (t.select v).leaf.max) :
    IsLeast (Set.range v.get) (t.select v).result.min := by
  have hlast := lastExtremal_min hmin v
  have hothers : ∀ q, q ≠ (t.select v).leaf.max → (t.select v).result.min ≤ v.get q := by
    intro q hq
    simpa [Extremum.prefers] using hlast.not_prefers (mem_others.mpr hq)
  refine ⟨⟨(t.select v).leaf.min, rfl⟩, ?_⟩
  rintro _ ⟨q, rfl⟩
  by_cases hq : q = (t.select v).leaf.max
  · rw [hq]
    exact Int32.le_trans (hothers p hp) hle
  · exact hothers q hq

/-- The derived tree with the published fault. -/
def ko2Tree : DecisionTree :=
  { derived with max := derived.max.replaceConjunct .a 2 ⟨.b, .d⟩, fault := some .ko2 }

lemma inject_ko2 : derived.inject .ko2 = .ok ko2Tree := rfl

/-- Once the guard of `a` rejects, the cascade goes on as the derived one. -/
lemma leaf_max_ko2Tree (v : Sextuple) : (ko2Tree.select v).leaf.max =
    if v.b < v.a ∧ v.c < v.a ∧ v.d < v.b ∧ v.e < v.a ∧ v.f < v.a then .a
    else (Cascade.derive .max [.b, .c, .d, .e] .f).resolve v := by
  have hresolve := Cascade.resolve_replaced_nil .max .a .f [.b, .c, .d, .e] 2 ⟨.b, .d⟩ v
  have haccepts : (Branch.mk .a (Cascade.replacedGuard .a .f [.b, .c, .d, .e] 2 ⟨.b, .d⟩)).accepts
      .max v = true ↔ v.get .b < v.get .a ∧ v.get .c < v.get .a ∧ v.get .d < v.get .b ∧
        v.get .e < v.get .a ∧ v.get .f < v.get .a := by
    simp [Branch.accepts, Cascade.replacedGuard, Comparison.holds, Extremum.prefers]
  simp only [haccepts] at hresolve
  exact hresolve

/-- Either `a` is taken and rightly so, or the greatest of the other words is taken, which is wrong
exactly on the sextuples that expose the fault. -/
lemma max_ko2Tree_cases (v : Sextuple) :
    (¬ v.ExposesKo2 ∧ (ko2Tree.select v).leaf.max = .a ∧ ∀ p, v.get p ≤ v.get .a) ∨
    ((v.ExposesKo2 ↔ v.get (ko2Tree.select v).leaf.max < v.get .a) ∧
      (ko2Tree.select v).leaf.max ≠ .a ∧
      ∀ p, p ≠ .a → v.get p ≤ v.get (ko2Tree.select v).leaf.max) := by
  rw [leaf_max_ko2Tree]
  split
  · next haccepts =>
    obtain ⟨hb, hc, hd, he, hf⟩ := haccepts
    refine .inl ⟨fun hexposes => ?_, rfl, fun p => ?_⟩
    · exact absurd hexposes.2 (Int32.not_le.mpr hd)
    · -- What `b` beats is beaten by `a` along with it.
      have hda : v.d < v.a := Int32.lt_trans hd hb
      cases p <;> simp only [Slots.get, Int32.le_refl] <;> exact Int32.le_of_lt ‹_›
  · next hrejects =>
    have hlast := Cascade.lastExtremal_derive .max [.b, .c, .d, .e] .f v
    generalize (Cascade.derive .max [.b, .c, .d, .e] .f).resolve v = best at hlast
    have hbest : best ≠ .a := by
      rintro rfl
      exact absurd hlast.mem (by decide)
    have hle : ∀ p, p ≠ .a → v.get p ≤ v.get best := by
      intro p hp
      have hmem : p ∈ [Position.b, .c, .d, .e] ++ [.f] := by cases p <;> simp at hp ⊢
      simpa [Extremum.prefers] using hlast.not_prefers hmem
    refine .inr ⟨⟨fun hexposes => ((v.exposesKo2_iff).mp hexposes).1 best hbest, fun hlt => ?_⟩,
      hbest, hle⟩
    have hall : ∀ p, p ≠ .a → v.get p < v.get .a := fun p hp =>
      Int32.lt_of_le_of_lt (hle p hp) hlt
    refine (v.exposesKo2_iff).mpr ⟨hall, Int32.not_lt.mp fun hdb => hrejects ?_⟩
    exact ⟨hall .b (by decide), hall .c (by decide), hdb, hall .e (by decide), hall .f (by decide)⟩

/-- Some word other than the one taken for the maximum is not greater, so the minimum is found. -/
lemma isLeast_min_ko2Tree (v : Sextuple) :
    IsLeast (Set.range v.get) (ko2Tree.select v).result.min := by
  rcases max_ko2Tree_cases v with ⟨-, ha, hle⟩ | ⟨-, -, hle⟩
  · refine isLeast_min (p := .b) rfl ?_ ?_
    · rw [ha]
      decide
    · rw [ha]
      exact hle .b
  · by_cases hb : (ko2Tree.select v).leaf.max = .b
    · refine isLeast_min (p := .c) rfl ?_ (hle .c (by decide))
      rw [hb]
      decide
    · exact isLeast_min (p := .b) rfl (Ne.symm hb) (hle .b (by decide))

/-- The tree with the published fault violates the postcondition exactly on the sextuples whose first
word is strictly greatest and whose second is not above the fourth. There it answers with the greatest
of the other words and the true minimum, and one conjunct fails; everywhere else the answer is right. -/
theorem ko2_exact : derived.inject .ko2 = .ok ko2Tree ∧ ∀ v : Sextuple,
    (ko2Tree.violates v = true ↔ v.ExposesKo2) ∧
    (v.ExposesKo2 →
      IsGreatest (v.get '' {p | p ≠ .a}) (ko2Tree.select v).result.max ∧
      IsLeast (Set.range v.get) (ko2Tree.select v).result.min ∧
      Oracle.failedConjuncts v (ko2Tree.select v).result = ["max >= a"]) ∧
    (¬ v.ExposesKo2 → v.HasExtrema (ko2Tree.select v).result) := by
  refine ⟨inject_ko2, fun v => ?_⟩
  have hmin := isLeast_min_ko2Tree v
  have hwrong : v.ExposesKo2 →
      IsGreatest (v.get '' {p | p ≠ .a}) (ko2Tree.select v).result.max ∧
      (ko2Tree.select v).result.max < v.get .a := by
    intro hexposes
    rcases max_ko2Tree_cases v with ⟨hnot, -⟩ | ⟨hiff, hne, hle⟩
    · exact absurd hexposes hnot
    · refine ⟨⟨⟨_, hne, rfl⟩, ?_⟩, hiff.mp hexposes⟩
      rintro _ ⟨p, hp, rfl⟩
      exact hle p hp
  have hright : ¬ v.ExposesKo2 → v.HasExtrema (ko2Tree.select v).result := by
    intro hnot
    refine ⟨⟨⟨(ko2Tree.select v).leaf.max, rfl⟩, ?_⟩, hmin⟩
    rintro _ ⟨p, rfl⟩
    rcases max_ko2Tree_cases v with ⟨-, ha, hle⟩ | ⟨hiff, -, hle⟩
    · rw [select_result_max, ha]
      exact hle p
    · by_cases hp : p = .a
      · exact hp ▸ Int32.not_lt.mp (hiff.not.mp hnot)
      · exact hle p hp
  refine ⟨⟨fun hviolates => ?_, fun hexposes => ?_⟩, fun hexposes => ?_, hright⟩
  · by_contra hnot
    rw [violates, (hright hnot).postconditionHolds] at hviolates
    cases hviolates
  · rw [← Bool.not_eq_false, violates_eq_false_iff]
    intro hholds
    exact absurd (hholds .a).1 (Int32.not_le.mpr (hwrong hexposes).2)
  · obtain ⟨hgreatest, habove⟩ := hwrong hexposes
    refine ⟨hgreatest, hmin, Oracle.failedConjuncts_eq_singleton habove ?_ fun q => hmin.2 ⟨q, rfl⟩⟩
    exact fun q hq => hgreatest.2 ⟨q, hq, rfl⟩

/-- The published counterexample, and the same words with `b` and `d` exchanged. -/
example : ko2Tree.violates ⟨1, -3, 0, -2, -1, -2⟩ = true ∧
    ko2Tree.violates ⟨1, -2, 0, -3, -1, -2⟩ = false := by decide

end DecisionTree
end VerifierBench
