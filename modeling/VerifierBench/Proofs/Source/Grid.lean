import Mathlib.Tactic.Ring
import VerifierBench.Number.Range
import VerifierBench.Source.Grid

/-! What a grid supplies: the sextuples over its range, in the order of the numerals that their
offsets form in the base of the width. -/
namespace VerifierBench

/-- The number with the given digits in base `w`, the most significant digit first. -/
def numeral (w : ℕ) (ds : List ℕ) : ℕ := ds.foldl (fun k d => k * w + d) 0

lemma foldl_numeral (w k : ℕ) (ds : List ℕ) :
    ds.foldl (fun k d => k * w + d) k = k * w ^ ds.length + numeral w ds := by
  induction ds generalizing k with
  | nil => simp [numeral]
  | cons d ds ih =>
    rw [numeral, List.foldl_cons, List.foldl_cons, ih, ih, List.length_cons, pow_succ]
    ring

lemma numeral_append (w : ℕ) (ds es : List ℕ) :
    numeral w (ds ++ es) = numeral w ds * w ^ es.length + numeral w es := by
  rw [numeral, List.foldl_append, foldl_numeral]
  rfl

lemma numeral_cons (w d : ℕ) (ds : List ℕ) :
    numeral w (d :: ds) = d * w ^ ds.length + numeral w ds := by
  rw [numeral, List.foldl_cons, foldl_numeral]
  simp

lemma numeral_lt {w : ℕ} {ds : List ℕ} (h : ∀ d ∈ ds, d < w) : numeral w ds < w ^ ds.length := by
  induction ds with
  | nil => simp [numeral]
  | cons d ds ih =>
    have hd := h d (List.mem_cons_self ..)
    have hds := ih fun e he => h e (List.mem_cons_of_mem d he)
    have hmul := Nat.mul_le_mul_right (w ^ ds.length) (Nat.succ_le_of_lt hd)
    rw [numeral_cons, List.length_cons, pow_succ, Nat.mul_comm _ w]
    rw [Nat.succ_mul] at hmul
    omega

/-- A digit is recovered by dividing off what follows and leaving out what precedes. -/
lemma numeral_digit {w d : ℕ} {es : List ℕ} (ds : List ℕ) (hd : d < w) (he : ∀ e ∈ es, e < w) :
    numeral w (ds ++ d :: es) / w ^ es.length % w = d := by
  have hlt := numeral_lt he
  have hpos : 0 < w ^ es.length := by omega
  have hsplit : numeral w (ds ++ d :: es) =
      numeral w es + w ^ es.length * (d + w * numeral w ds) := by
    rw [numeral_append, numeral_cons, List.length_cons, pow_succ]
    ring
  rw [hsplit, Nat.add_mul_div_left _ _ hpos, Nat.div_eq_of_lt hlt, Nat.zero_add,
    Nat.add_mul_mod_self_left, Nat.mod_eq_of_lt hd]

lemma Position.all_split (p : Position) :
    ∃ before after, all = before ++ p :: after ∧ after.length = 5 - p.index :=
  ⟨all.take p.index, all.drop (p.index + 1), by cases p <;> rfl, by cases p <;> rfl⟩

namespace Grid

/-- How far a word is above the low end of the range. -/
def offset (g : Grid) (x : Int32) : ℕ := (x.toInt - g.low.toInt).toNat

/-- The place of a sextuple over the range. -/
def place (g : Grid) (v : Sextuple) : ℕ := numeral g.width (v.toList.map g.offset)

/-- All six words lie in the range. -/
def Contains (g : Grid) (v : Sextuple) : Prop := ∀ p, g.low ≤ v.get p ∧ v.get p ≤ g.high

lemma offset_lt_width {g : Grid} {x : Int32} (h : g.low ≤ x ∧ x ≤ g.high) :
    g.offset x < g.width := by
  simp only [Int32.le_iff_toInt_le] at h
  simp only [offset, width]
  omega

lemma word_offset {g : Grid} {x : Int32} (h : g.low ≤ x) : g.word (g.offset x) = x := by
  rw [Int32.le_iff_toInt_le] at h
  have hsum : g.low.toInt + (g.offset x : ℤ) = x.toInt := by
    simp only [offset]
    omega
  rw [word, hsum, Int32.ofInt_toInt]

lemma toInt_word {g : Grid} {k : ℕ} (h : k < g.width) :
    (g.word k).toInt = g.low.toInt + k ∧ g.low ≤ g.word k ∧ g.word k ≤ g.high := by
  have hl := g.low.le_toInt
  have hu := g.high.toInt_lt
  simp only [width] at h
  have hword : (g.word k).toInt = g.low.toInt + k :=
    toInt_ofInt_of_isInt32 ((isInt32_iff _).mpr (by omega))
  refine ⟨hword, ?_, ?_⟩ <;> rw [Int32.le_iff_toInt_le, hword] <;> omega

lemma mem_offsets {g : Grid} {v : Sextuple} (h : g.Contains v) (ps : List Position) :
    ∀ d ∈ ps.map fun p => g.offset (v.get p), d < g.width := by
  intro d hd
  obtain ⟨p, -, rfl⟩ := List.mem_map.mp hd
  exact offset_lt_width (h p)

lemma place_eq (g : Grid) (v : Sextuple) :
    g.place v = numeral g.width (Position.all.map fun p => g.offset (v.get p)) := by
  rw [place, Slots.toList_eq_map, List.map_map]
  rfl

theorem place_lt_size {g : Grid} {v : Sextuple} (h : g.Contains v) : g.place v < g.size := by
  rw [place_eq]
  exact numeral_lt (mem_offsets h Position.all)

theorem item_place {g : Grid} {v : Sextuple} (h : g.Contains v) : g.item (g.place v) = v := by
  apply Slots.ext_get
  intro p
  obtain ⟨before, after, hall, hlength⟩ := p.all_split
  have hdigit : g.digit (g.place v) (5 - p.index) = g.offset (v.get p) := by
    rw [digit, place_eq, hall, List.map_append, List.map_cons, ← hlength]
    simpa using numeral_digit (before.map fun p => g.offset (v.get p)) (offset_lt_width (h p))
      (mem_offsets h after)
  rw [item, Slots.get_ofFn, hdigit, word_offset (h p).1]

theorem contains_item {g : Grid} (h : 0 < g.width) (k : ℕ) : g.Contains (g.item k) := by
  intro p
  rw [item, Slots.get_ofFn]
  exact (toInt_word (Nat.mod_lt _ h)).2

lemma isSome_checkedSize_iff (g : Grid) : g.checkedSize.isSome = true ↔ g.size < UInt64.size := by
  rw [checkedSize]
  split <;> simp_all

end Grid

namespace Supply

lemma toList_ofGridFor (n : ℕ) (g : Grid) (h : n ≤ g.remaining) :
    (ofGridFor n g).toList = (List.range' g.index n).map g.item := by
  induction n generalizing g with
  | zero => rfl
  | succ n ih =>
    have hindex : g.index < g.size := by
      rw [Grid.remaining] at h
      omega
    have hrest := ih { g with index := g.index + 1 } (by
      change n ≤ g.size - (g.index + 1)
      rw [Grid.remaining] at h
      omega)
    simp only [ofGridFor, Grid.next?, if_pos hindex, toList, hrest, List.range'_succ, List.map_cons]
    rfl

/-- A fresh grid supplies the items at all places in order. -/
theorem toList_ofGrid_between (low high : Int32) :
    (ofGrid (.between low high)).toList =
      (List.range (Grid.between low high).size).map (Grid.between low high).item := by
  rw [ofGrid, toList_ofGridFor _ _ le_rfl, List.range_eq_range']
  rfl

theorem length_ofGrid_between (low high : Int32) :
    (ofGrid (.between low high)).toList.length = (Grid.between low high).size := by
  rw [toList_ofGrid_between, List.length_map, List.length_range]

/-- The sextuples supplied are exactly those over the range. -/
theorem mem_ofGrid_between {low high : Int32} {v : Sextuple} :
    v ∈ (ofGrid (.between low high)).toList ↔ (Grid.between low high).Contains v := by
  rw [toList_ofGrid_between, List.mem_map]
  constructor
  · rintro ⟨k, hk, rfl⟩
    apply Grid.contains_item
    by_contra hwidth
    have hzero : (Grid.between low high).width = 0 := by omega
    simp [Grid.size, hzero] at hk
  · intro hv
    exact ⟨_, List.mem_range.mpr (Grid.place_lt_size hv), Grid.item_place hv⟩

end Supply
end VerifierBench
