import Mathlib.Data.List.Nodup
import VerifierBench.Proofs.Source.Grid

/-! A grid as an iterator: it answers with the sextuples over its range, each once and in
lexicographic order, and then with nothing for good. -/
namespace VerifierBench

/-- What an iterator answers when it is called again after `k` calls. -/
def nthAnswer {σ α : Type} (call : σ → Option α × σ) : ℕ → σ → Option α
  | 0, s => (call s).1
  | k + 1, s => nthAnswer call k (call s).2

/-- Iterators give the same answers if related states do, and stay related. -/
theorem nthAnswer_congr {σ τ α : Type} {callS : σ → Option α × σ} {callT : τ → Option α × τ}
    {R : σ → τ → Prop}
    (hstep : ∀ {s t}, R s t → (callS s).1 = (callT t).1 ∧ R (callS s).2 (callT t).2)
    {s : σ} {t : τ} (h : R s t) (k : ℕ) : nthAnswer callS k s = nthAnswer callT k t := by
  induction k generalizing s t with
  | zero => exact (hstep h).1
  | succ k ih => exact ih (hstep h).2

/-- The last digits of a number are the digits of its remainder. -/
lemma numeral_digits (w k n : ℕ) :
    numeral w ((List.range n).reverse.map fun i => k / w ^ i % w) = k % w ^ n := by
  induction n with
  | zero => simp [numeral, Nat.mod_one]
  | succ n ih =>
    rw [List.range_succ, List.reverse_append, List.reverse_singleton, List.singleton_append,
      List.map_cons, numeral_cons, ih, List.length_map, List.length_reverse, List.length_range,
      Nat.mod_pow_succ, Nat.mul_comm, Nat.add_comm]

namespace Grid
variable {g : Grid}

lemma offset_word {k : ℕ} (h : k < g.width) : g.offset (g.word k) = k := by
  rw [offset, (toInt_word h).1]
  omega

lemma width_pos_of_lt_size {k : ℕ} (h : k < g.size) : 0 < g.width := by
  by_contra hwidth
  have hzero : g.width = 0 := by omega
  simp [size, hzero] at h

lemma get_item (g : Grid) (k : ℕ) (p : Position) :
    (g.item k).get p = g.word (k / g.width ^ (5 - p.index) % g.width) := by
  rw [item, Slots.get_ofFn]
  rfl

/-- A word of an item is a digit above the low end, with nothing lost to the width of words. -/
lemma toInt_get_item (h : 0 < g.width) (k : ℕ) (p : Position) :
    ((g.item k).get p).toInt = g.low.toInt + (k / g.width ^ (5 - p.index) % g.width : ℕ) := by
  rw [get_item, (toInt_word (Nat.mod_lt _ h)).1]

/-- Items and places are inverse to each other. -/
theorem place_item {k : ℕ} (h : k < g.size) : g.place (g.item k) = k := by
  have hwidth := width_pos_of_lt_size h
  have hoffsets : (Position.all.map fun p => g.offset ((g.item k).get p)) =
      (List.range 6).reverse.map fun i => k / g.width ^ i % g.width := by
    have hoffset : ∀ p, g.offset ((g.item k).get p) = k / g.width ^ (5 - p.index) % g.width := by
      intro p
      rw [get_item, offset_word (Nat.mod_lt _ hwidth)]
    simp only [hoffset]
    rfl
  rw [place_eq, hoffsets, numeral_digits]
  exact Nat.mod_eq_of_lt h

/-- Numerals of the same length compare as their digits do, the first difference deciding. -/
lemma lt_of_numeral_lt {xs ys : List Int32} (hlength : xs.length = ys.length)
    (hxs : ∀ x ∈ xs, g.low ≤ x ∧ x ≤ g.high) (hys : ∀ y ∈ ys, g.low ≤ y ∧ y ≤ g.high)
    (h : numeral g.width (xs.map g.offset) < numeral g.width (ys.map g.offset)) : xs < ys := by
  induction xs generalizing ys with
  | nil =>
    cases ys with
    | nil => exact absurd h (Nat.lt_irrefl _)
    | cons y ys => cases hlength
  | cons x xs ih =>
    cases ys with
    | nil => cases hlength
    | cons y ys =>
      obtain ⟨hx, hxs⟩ := List.forall_mem_cons.mp hxs
      obtain ⟨hy, hys⟩ := List.forall_mem_cons.mp hys
      have hlength : xs.length = ys.length := Nat.succ.inj hlength
      simp only [List.map_cons, numeral_cons, List.length_map, hlength] at h
      have hlt : numeral g.width (ys.map g.offset) < g.width ^ ys.length := by
        have hoffsets : ∀ d ∈ ys.map g.offset, d < g.width := by
          intro d hd
          obtain ⟨z, hz, rfl⟩ := List.mem_map.mp hd
          exact offset_lt_width (hys z hz)
        simpa using numeral_lt hoffsets
      rw [List.cons_lt_cons_iff]
      rcases Nat.lt_trichotomy (g.offset x) (g.offset y) with hxy | hxy | hxy
      · left
        simp only [Int32.le_iff_toInt_le] at hx hy
        simp only [offset] at hxy
        rw [Int32.lt_iff_toInt_lt]
        omega
      · right
        have hsame : x = y := by rw [← word_offset hx.1, hxy, word_offset hy.1]
        exact ⟨hsame, ih hlength hxs hys (by rw [hxy] at h; omega)⟩
      · have hmul := Nat.mul_le_mul_right (g.width ^ ys.length) (Nat.succ_le_of_lt hxy)
        rw [Nat.succ_mul] at hmul
        omega

theorem toList_lt_of_place_lt {u v : Sextuple} (hu : g.Contains u) (hv : g.Contains v)
    (h : g.place u < g.place v) : u.toList < v.toList := by
  refine lt_of_numeral_lt rfl ?_ ?_ h
  · intro x hx
    obtain ⟨p, rfl⟩ := Slots.mem_toList.mp hx
    exact hu p
  · intro y hy
    obtain ⟨p, rfl⟩ := Slots.mem_toList.mp hy
    exact hv p

/-- One call of a grid: the next sextuple, or none without any change. -/
def call (g : Grid) : Option Sextuple × Grid :=
  match g.next? with
  | some (v, g) => (some v, g)
  | none => (none, g)

lemma call_of_lt (h : g.index < g.size) :
    g.call = (some (g.item g.index), { g with index := g.index + 1 }) := by
  simp only [call, next?, if_pos h]

lemma call_of_le (h : g.size ≤ g.index) : g.call = (none, g) := by
  simp only [call, next?, if_neg (Nat.not_lt.mpr h)]

theorem nthAnswer_call (g : Grid) (k : ℕ) :
    nthAnswer call k g =
      if g.index + k < g.size then some (g.item (g.index + k)) else none := by
  induction k generalizing g with
  | zero =>
    rw [nthAnswer, Nat.add_zero]
    split
    · next h => rw [call_of_lt h]
    · next h => rw [call_of_le (Nat.not_lt.mp h)]
  | succ k ih =>
    rw [nthAnswer]
    rcases Nat.lt_or_ge g.index g.size with h | h
    · rw [call_of_lt h, ih, Nat.add_right_comm, ← Nat.add_assoc]
      rfl
    · rw [call_of_le h, ih g, if_neg (by omega), if_neg (by omega)]

/-- A fresh grid answers with what it supplies. -/
theorem nthAnswer_between (low high : Int32) (k : ℕ) :
    nthAnswer call k (.between low high) = (Supply.ofGrid (.between low high)).toList[k]? := by
  rw [nthAnswer_call, Supply.toList_ofGrid_between, List.getElem?_map]
  have hindex : (between low high).index + k = k := Nat.zero_add k
  rw [hindex]
  split
  · next h => rw [List.getElem?_range h, Option.map_some]
  · next h => rw [List.getElem?_eq_none (by simpa using h), Option.map_none]

/-- The words of the sextuple in some place are the digits of that place above the low end. -/
theorem toInt_get_of_getElem? {low high : Int32} {k : ℕ} {v : Sextuple}
    (h : (Supply.ofGrid (.between low high)).toList[k]? = some v) (p : Position) :
    (v.get p).toInt = low.toInt +
      (k / (between low high).width ^ (5 - p.index) % (between low high).width : ℕ) := by
  obtain ⟨hk, hitem⟩ := List.getElem?_eq_some_iff.mp h
  rw [Supply.length_ofGrid_between] at hk
  simp only [Supply.toList_ofGrid_between, List.getElem_map, List.getElem_range] at hitem
  rw [← hitem]
  exact toInt_get_item (width_pos_of_lt_size hk) k p

/-- Of the sextuples supplied, an earlier one comes first in the lexicographic order. -/
theorem pairwise_ofGrid_between (low high : Int32) :
    (Supply.ofGrid (.between low high)).toList.Pairwise fun u v => u.toList < v.toList := by
  rw [Supply.toList_ofGrid_between, List.pairwise_map]
  refine List.pairwise_lt_range.imp_of_mem ?_
  intro i j hi hj hij
  have hi := List.mem_range.mp hi
  have hj := List.mem_range.mp hj
  have hwidth := width_pos_of_lt_size hi
  refine toList_lt_of_place_lt (contains_item hwidth i) (contains_item hwidth j) ?_
  rwa [place_item hi, place_item hj]

theorem nodup_ofGrid_between (low high : Int32) :
    (Supply.ofGrid (.between low high)).toList.Nodup := by
  refine (pairwise_ofGrid_between low high).imp ?_
  rintro u v h rfl
  exact List.lt_irrefl _ h

end Grid
end VerifierBench
