import VerifierBench.Proofs.Campaign.Accounting
import VerifierBench.Proofs.Source.Grid
import VerifierBench.Proofs.Tree.Extrema

/-! Sweeps that take every leaf of the derived tree. Three words are enough, since every leaf is taken
where its two positions hold the ends of three words in a row and all others the middle one. Two are
not: the leaf for the maximum at `a` and the minimum at `b` asks for a third word between them. -/
namespace VerifierBench

namespace CampaignReport
variable {r : CampaignReport} {t : DecisionTree} {seen : List Sextuple}

lemma Accounts.hits_pos_iff (h : r.Accounts t seen) (l : Leaf) :
    0 < r.coverage.hits l ↔ ∃ v ∈ seen, (t.select v).leaf = l := by
  rw [h.hits_eq, List.countP_pos_iff]
  simp only [decide_eq_true_eq]

/-- No leaf is uncovered exactly if every leaf has hits. -/
lemma Accounts.uncovered_eq_nil_iff (h : r.Accounts t seen) :
    r.uncovered t = [] ↔ ∀ l ∈ t.leaves, 0 < r.coverage.hits l := by
  have hcovers : ∀ l, r.coverage.covers l = true ↔ 0 < r.coverage.hits l := by
    intro l
    rw [h.coverage.covers_iff, h.hits_pos_iff, List.mem_map]
  simp only [uncovered, List.filter_eq_nil_iff, Bool.not_eq_true', Bool.not_eq_false, hcovers]

end CampaignReport

namespace Leaf
variable {low high : Int32}

/-- The word two above `low` for the maximum, `low` for the minimum, and the word between them for the
other four. -/
def exhibit (l : Leaf) (low : Int32) : Sextuple :=
  .ofFn fun p => .ofInt (low.toInt + (if p = l.max then 2 else if p = l.min then 0 else 1 : ℕ))

lemma toInt_exhibit (l : Leaf) (hwidth : low.toInt + 2 ≤ high.toInt) (p : Position) :
    ((l.exhibit low).get p).toInt =
      low.toInt + (if p = l.max then 2 else if p = l.min then 0 else 1 : ℕ) := by
  have hl := low.le_toInt
  have hu := high.toInt_lt
  rw [exhibit, Slots.get_ofFn]
  apply toInt_ofInt_of_isInt32
  rw [isInt32_iff]
  split_ifs <;> omega

lemma contains_exhibit (l : Leaf) (hwidth : low.toInt + 2 ≤ high.toInt) :
    (Grid.between low high).Contains (l.exhibit low) := by
  intro p
  have hp := toInt_exhibit l hwidth p
  simp only [Grid.between, Int32.le_iff_toInt_le, hp]
  split_ifs <;> omega

end Leaf

namespace DecisionTree
variable {v : Sextuple} {l : Leaf} {low high : Int32}

/-- A leaf is taken where its maximum is above all others and its minimum below the other four. -/
lemma leaf_eq_of_lt (hne : l.min ≠ l.max) (hmax : ∀ p, p ≠ l.max → v.get p < v.get l.max)
    (hmin : ∀ p, p ≠ l.max → p ≠ l.min → v.get l.min < v.get p) : (derived.select v).leaf = l := by
  have hM : (derived.select v).leaf.max = l.max := by
    refine (lastExtremal_max v).eq_of_prefers l.max.mem_all fun p _ hp => ?_
    simpa [Extremum.prefers] using hmax p hp
  have hm : (derived.select v).leaf.min = l.min := by
    refine (lastExtremal_min rfl v).eq_of_prefers (mem_others.mpr (hM ▸ hne)) fun p hp hpm => ?_
    rw [mem_others, hM] at hp
    simpa [Extremum.prefers] using hmin p hp hpm
  rw [← Leaf.rank_inj, Leaf.rank, Leaf.rank, hM, hm]

theorem leaf_exhibit (hne : l.min ≠ l.max) (hwidth : low.toInt + 2 ≤ high.toInt) :
    (derived.select (l.exhibit low)).leaf = l := by
  have hword := l.toInt_exhibit hwidth
  refine leaf_eq_of_lt hne (fun p hp => ?_) fun p hp hpm => ?_
  · rw [Int32.lt_iff_toInt_lt, hword, hword, if_pos rfl, if_neg hp]
    split_ifs <;> omega
  · rw [Int32.lt_iff_toInt_lt, hword, hword, if_neg hne, if_pos rfl, if_neg hp, if_neg hpm]
    omega

/-- The last greatest word stands at `a` only if it is above the word at `c`, and the last least of the
others at `b` only if it is below that. -/
theorem distinct_of_leaf (h : (derived.select v).leaf = ⟨.a, .b⟩) :
    v.get .b < v.get .c ∧ v.get .c < v.get .a := by
  obtain ⟨hmaxAt, hminAt, -, -, hmax, -, hmin⟩ := isExtremal_derived v
  rw [h] at hmaxAt hminAt hmax hmin
  constructor
  · rw [← hminAt]
    exact hmin .c (by decide) (by decide)
  · rw [← hmaxAt]
    exact hmax .c (by decide)

/-- Some sextuple over a range takes each of the leaves exactly if the range has three words. -/
theorem forall_leaf_taken_iff (low high : Int32) :
    (∀ l ∈ derived.leaves, ∃ v, (Grid.between low high).Contains v ∧ (derived.select v).leaf = l) ↔
      2 ≤ high.toInt - low.toInt := by
  constructor
  · intro htaken
    obtain ⟨v, hcontains, hleaf⟩ := htaken ⟨.a, .b⟩ (by decide)
    obtain ⟨hbc, hca⟩ := distinct_of_leaf hleaf
    have hlow : low ≤ v.get .b := (hcontains .b).1
    have hhigh : v.get .a ≤ high := (hcontains .a).2
    rw [Int32.lt_iff_toInt_lt] at hbc hca
    rw [Int32.le_iff_toInt_le] at hlow hhigh
    omega
  · intro hwidth l hl
    have hwidth : low.toInt + 2 ≤ high.toInt := by omega
    exact ⟨l.exhibit low, l.contains_exhibit hwidth,
      leaf_exhibit (max_ne_min_of_mem_leaves_derived l hl).symm hwidth⟩

/-- A full sweep of the derived tree leaves none of its thirty leaves uncovered exactly if its range
has three words or more; all its counters are 64-bit words. -/
theorem sweep_covers_leaves_iff {low high : Int32}
    (hsize : (Grid.between low high).checkedSize.isSome = true) {μ : Type} (sink : Sink μ) (m : μ) :
    derived.leaves.length = 30 ∧ derived.leaves.Nodup ∧
    ∃ r m', derived.sweep sink false (.ofGrid (.between low high)) m = (r, m') ∧
      (r.uncovered derived = [] ↔ 2 ≤ high.toInt - low.toInt) ∧
      ((∀ l ∈ derived.leaves, 0 < r.coverage.hits l) ↔ 2 ≤ high.toInt - low.toInt) ∧
      r.cases < UInt64.size ∧ ∀ l, r.coverage.hits l < UInt64.size := by
  have haccounts := derived.accounts_sweep sink false (.ofGrid (.between low high)) m
  rw [processed_false] at haccounts
  have hfits : (Supply.ofGrid (.between low high)).toList.length < UInt64.size := by
    rw [Supply.length_ofGrid_between]
    exact (Grid.isSome_checkedSize_iff _).mp hsize
  have hhits : (∀ l ∈ derived.leaves, 0 < (derived.sweep sink false
      (.ofGrid (.between low high)) m).1.coverage.hits l) ↔ 2 ≤ high.toInt - low.toInt := by
    rw [← forall_leaf_taken_iff]
    simp only [haccounts.hits_pos_iff, Supply.mem_ofGrid_between]
  have hdescribes := haccounts.describes nodup_leaves_derived hfits
  exact ⟨length_leaves_derived, nodup_leaves_derived, _, _, rfl,
    haccounts.uncovered_eq_nil_iff.trans hhits, hhits, hdescribes.fits.1, hdescribes.fits.2.2⟩

/-- The three greatest words of all take every leaf. -/
theorem sweep_covers_leaves_at_end :
    (Grid.between (Int32.maxValue - 2) Int32.maxValue).checkedSize.isSome = true ∧
    ∃ r m', derived.sweep Sink.recorder false
        (.ofGrid (.between (Int32.maxValue - 2) Int32.maxValue)) #[] = (r, m') ∧
      r.uncovered derived = [] := by
  have hsize : (Grid.between (Int32.maxValue - 2) Int32.maxValue).checkedSize.isSome = true := by
    decide
  obtain ⟨-, -, r, m', hsweep, huncovered, -⟩ :=
    sweep_covers_leaves_iff hsize Sink.recorder #[]
  exact ⟨hsize, r, m', hsweep, huncovered.mpr (by decide)⟩

end DecisionTree
end VerifierBench
