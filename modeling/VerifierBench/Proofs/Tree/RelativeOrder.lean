import Mathlib.Data.Nat.Notation
import Mathlib.Tactic.Lemma
import VerifierBench.Number.Range
import VerifierBench.Tree.Decision

/-! Trees only compare words. Sextuples whose words stand in the same relative order take the same
leaf, and every relative order of six words is met among any six words in a row. -/
namespace VerifierBench

/-- The words of both sextuples compare alike at all positions. -/
def Sextuple.SameOrder (u v : Sextuple) : Prop := ∀ p q, u.get p < u.get q ↔ v.get p < v.get q

section SameOrder
variable {u v : Sextuple}

lemma Comparison.holds_congr (h : u.SameOrder v) (c : Comparison) (e : Extremum) :
    c.holds e u = c.holds e v := by
  cases e with
  | max => exact decide_eq_decide.mpr (h c.rhs c.lhs)
  | min => exact decide_eq_decide.mpr (h c.lhs c.rhs)

lemma Branch.accepts_congr (h : u.SameOrder v) (b : Branch) (e : Extremum) :
    b.accepts e u = b.accepts e v := by
  simp only [accepts, Comparison.holds_congr h]

theorem Cascade.resolve_congr (h : u.SameOrder v) (c : Cascade) : c.resolve u = c.resolve v := by
  simp only [resolve, Branch.accepts_congr h]

/-- The guards may compare any positions, as long as they compare nothing but positions. -/
theorem DecisionTree.leaf_congr (h : u.SameOrder v) (t : DecisionTree) :
    (t.select u).leaf = (t.select v).leaf := by
  simp only [select, Cascade.resolve_congr h]

end SameOrder

lemma countP_lt_countP {α : Type} {p q : α → Bool} {l : List α} (h : ∀ x ∈ l, p x → q x) {y : α}
    (hy : y ∈ l) (hp : p y = false) (hq : q y = true) : l.countP p < l.countP q := by
  obtain ⟨s, t, rfl⟩ := List.append_of_mem hy
  have hs : s.countP p ≤ s.countP q := List.countP_mono_left fun x hx => h x (by simp [hx])
  have ht : t.countP p ≤ t.countP q := List.countP_mono_left fun x hx => h x (by simp [hx])
  simp only [List.countP_append, List.countP_cons, hp, hq]
  simp only [Bool.false_eq_true, if_false, if_true]
  omega

namespace Sextuple

/-- The number of positions that hold a smaller word. -/
def rank (v : Sextuple) (p : Position) : ℕ := Position.all.countP fun q => decide (v.get q < v.get p)

lemma rank_le_five (v : Sextuple) (p : Position) : v.rank p ≤ 5 := by
  have h : v.rank p < Position.all.countP fun _ => true :=
    countP_lt_countP (fun _ _ _ => rfl) p.mem_all (by simp) rfl
  simpa [Position.all] using Nat.le_of_lt_succ h

lemma rank_le_rank {v : Sextuple} {p q : Position} (h : v.get p ≤ v.get q) :
    v.rank p ≤ v.rank q := by
  apply List.countP_mono_left
  intro r _ hr
  rw [decide_eq_true_eq, Int32.lt_iff_toInt_lt] at *
  rw [Int32.le_iff_toInt_le] at h
  omega

theorem rank_lt_rank_iff (v : Sextuple) (p q : Position) :
    v.rank p < v.rank q ↔ v.get p < v.get q := by
  constructor
  · intro h
    rw [← Int32.not_le]
    exact fun hle => absurd (rank_le_rank hle) (Nat.not_le.mpr h)
  · intro h
    have hself : decide (v.get p < v.get p) = false := by simp
    refine countP_lt_countP ?_ p.mem_all hself (decide_eq_true h)
    intro r _ hr
    rw [decide_eq_true_eq, Int32.lt_iff_toInt_lt] at *
    omega

/-- The sextuple over the words from `low` on that stand in the order of the words of `v`. -/
def compressed (low : Int32) (v : Sextuple) : Sextuple :=
  .ofFn fun p => .ofInt (low.toInt + v.rank p)

section Compressed
variable {low high : Int32}

lemma toInt_compressed (hwidth : high.toInt = low.toInt + 5) (v : Sextuple) (p : Position) :
    ((compressed low v).get p).toInt = low.toInt + v.rank p := by
  have hl := low.le_toInt
  have hu := high.toInt_lt
  have hrank := v.rank_le_five p
  rw [compressed, Slots.get_ofFn]
  apply toInt_ofInt_of_isInt32
  rw [isInt32_iff]
  omega

theorem sameOrder_compressed (hwidth : high.toInt = low.toInt + 5) (v : Sextuple) :
    (compressed low v).SameOrder v := by
  intro p q
  rw [← v.rank_lt_rank_iff, Int32.lt_iff_toInt_lt, toInt_compressed hwidth,
    toInt_compressed hwidth]
  omega

end Compressed
end Sextuple
end VerifierBench
