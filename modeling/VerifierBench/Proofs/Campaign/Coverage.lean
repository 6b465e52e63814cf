import Mathlib.Algebra.GroupWithZero.Nat
import Mathlib.Tactic.ByContra
import Mathlib.Tactic.Lemma
import VerifierBench.Campaign

/-! Coverage tables. Counting a hit keeps the table in leaf order and changes one count, so a table
built by hits alone lists the leaves that were met, each with its number of hits. -/
namespace VerifierBench

/-- Leaf order: by the maximum, then by the minimum. -/
def Leaf.Precedes (k l : Leaf) : Prop :=
  k.max.index < l.max.index ∨ k.max = l.max ∧ k.min.index < l.min.index

lemma Leaf.precedes_iff_rank_lt {k l : Leaf} : k.Precedes l ↔ k.rank < l.rank := by
  have hk := k.min.index_lt
  have hl := l.min.index_lt
  simp only [Precedes, rank, ← Position.index_inj]
  omega

namespace Coverage
variable {c : Coverage} {k l : Leaf} {n : ℕ}

def Ordered (c : Coverage) : Prop := c.Pairwise fun x y => x.1.rank < y.1.rank

lemma Ordered.tail {entry : Leaf × ℕ} (h : Ordered (entry :: c)) : Ordered c :=
  (List.pairwise_cons.mp h).2

lemma Ordered.rank_lt {m : ℕ} (h : Ordered ((k, m) :: c)) (hl : (l, n) ∈ c) : k.rank < l.rank :=
  (List.pairwise_cons.mp h).1 (l, n) hl

lemma hits_cons (c : Coverage) (k l : Leaf) (n : ℕ) :
    hits ((k, n) :: c) l = if k = l then n else hits c l := by
  simp only [hits, List.find?_cons]
  by_cases h : k = l <;> simp [h]

lemma hits_of_forall_ne (h : ∀ k n, (k, n) ∈ c → k ≠ l) : c.hits l = 0 := by
  induction c with
  | nil => rfl
  | cons entry c ih =>
    obtain ⟨k, n⟩ := entry
    rw [hits_cons, if_neg (h k n (List.mem_cons_self ..))]
    exact ih fun k n hk => h k n (List.mem_cons_of_mem _ hk)

/-- Going past an entry with a smaller leaf; a greater one shows that the leaf is absent. -/
theorem mem_hit (h : c.Ordered) :
    (k, n) ∈ c.hit l ↔ k ≠ l ∧ (k, n) ∈ c ∨ k = l ∧ n = c.hits l + 1 := by
  induction c with
  | nil => simp [hit, hits]
  | cons entry c ih =>
    obtain ⟨j, m⟩ := entry
    have hlater : ∀ {i x}, (i, x) ∈ c → j.rank < i.rank := h.rank_lt
    rw [hit, hits_cons]
    split
    · next hj =>
      subst hj
      have hne : (k, n) ∈ c → k ≠ j := by
        rintro hk rfl
        exact absurd (hlater hk) (Nat.lt_irrefl _)
      simp only [List.mem_cons, Prod.mk.injEq]
      grind
    · next hj =>
      split
      · next hlt =>
        have habsent : ∀ i x, (i, x) ∈ c → i ≠ l := by
          rintro i x hi rfl
          exact absurd (hlater hi) (by omega)
        rw [hits_of_forall_ne habsent]
        have hne : (k, n) ∈ c → k ≠ l := habsent k n
        simp only [List.mem_cons, Prod.mk.injEq]
        grind
      · simp only [List.mem_cons, Prod.mk.injEq, ih h.tail]
        grind

theorem ordered_hit (h : c.Ordered) (l : Leaf) : (c.hit l).Ordered := by
  induction c with
  | nil => simp [hit, Ordered]
  | cons entry c ih =>
    obtain ⟨j, m⟩ := entry
    have hlater : ∀ {i x}, (i, x) ∈ c → j.rank < i.rank := h.rank_lt
    rw [hit]
    split
    · exact List.pairwise_cons.mpr (List.pairwise_cons.mp h)
    · next hj =>
      split
      · next hlt =>
        refine List.pairwise_cons.mpr ⟨?_, h⟩
        rintro ⟨i, x⟩ hi
        rcases List.mem_cons.mp hi with hi | hi
        · cases hi
          exact hlt
        · exact Nat.lt_trans hlt (hlater hi)
      · next hge =>
        have hlt : j.rank < l.rank := by
          have hne : j.rank ≠ l.rank := fun hrank => hj (Leaf.rank_inj.mp hrank)
          omega
        refine List.pairwise_cons.mpr ⟨?_, ih h.tail⟩
        rintro ⟨i, x⟩ hi
        rcases (mem_hit h.tail).mp hi with ⟨-, hi⟩ | ⟨rfl, -⟩
        · exact hlater hi
        · exact hlt

lemma sum_hit (c : Coverage) (l : Leaf) :
    ((c.hit l).map Prod.snd).sum = (c.map Prod.snd).sum + 1 := by
  induction c with
  | nil => rfl
  | cons entry c ih =>
    obtain ⟨j, m⟩ := entry
    rw [hit]
    split
    · simp only [List.map_cons, List.sum_cons]
      omega
    · split
      · simp only [List.map_cons, List.sum_cons]
        omega
      · simp only [List.map_cons, List.sum_cons, ih]
        omega

/-- The table lists the leaves met in `ls`, in leaf order, each with the number of times it was met. -/
structure Counts (c : Coverage) (ls : List Leaf) : Prop where
  ordered : c.Ordered
  mem_iff : ∀ l n, (l, n) ∈ c ↔ 0 < n ∧ n = ls.count l
  total : (c.map Prod.snd).sum = ls.length

namespace Counts
variable {ls : List Leaf}

lemma nil : Counts [] [] := ⟨.nil, by simp; omega, rfl⟩

lemma hits_eq (h : c.Counts ls) (l : Leaf) : c.hits l = ls.count l := by
  rw [hits]
  split
  · next k n hfind =>
    have hk : k = l := by simpa using List.find?_some hfind
    rw [← hk]
    exact ((h.mem_iff k n).mp (List.mem_of_find?_eq_some hfind)).2
  · next hnone =>
    by_contra hne
    have hmem := (h.mem_iff l (ls.count l)).mpr ⟨by omega, rfl⟩
    exact List.find?_eq_none.mp hnone _ hmem (by simp)

lemma mem_keys_iff (h : c.Counts ls) (l : Leaf) : l ∈ c.map Prod.fst ↔ l ∈ ls := by
  rw [← List.count_pos_iff (l := ls), List.mem_map]
  constructor
  · rintro ⟨⟨k, n⟩, hk, rfl⟩
    obtain ⟨hpos, hn⟩ := (h.mem_iff k n).mp hk
    rwa [hn] at hpos
  · intro hpos
    exact ⟨(l, ls.count l), (h.mem_iff l _).mpr ⟨hpos, rfl⟩, rfl⟩

lemma covers_iff (h : c.Counts ls) (l : Leaf) : c.covers l = true ↔ l ∈ ls := by
  rw [← h.mem_keys_iff, covers, List.any_eq_true, List.mem_map]
  simp

lemma nodup_keys (h : c.Counts ls) : (c.map Prod.fst).Nodup := by
  refine List.Pairwise.map _ ?_ h.ordered
  rintro x y hlt heq
  rw [heq] at hlt
  exact Nat.lt_irrefl _ hlt

/-- A hit is one more leaf at the end of what was met. -/
theorem hit (h : c.Counts ls) (l : Leaf) : (c.hit l).Counts (ls ++ [l]) := by
  refine ⟨ordered_hit h.ordered l, ?_, ?_⟩
  · intro k n
    rw [mem_hit h.ordered, h.mem_iff, h.hits_eq, List.count_append]
    by_cases hk : k = l
    · subst hk
      simp only [ne_eq, not_true_eq_false, false_and, true_and, false_or, List.count_singleton_self]
      omega
    · simp [hk, Ne.symm hk]
  · rw [sum_hit, h.total, List.length_append, List.length_singleton]

end Counts
end Coverage
end VerifierBench
