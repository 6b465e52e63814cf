import Mathlib.Data.Nat.Digits.Lemmas
import VerifierBench.Proofs.Source.Enumeration

/-! Grids as odometers: six wheels that carry into each other and a flag for the last turn, all in
64-bit words. An odometer answers every call as the grid does that counts places. -/
namespace VerifierBench

/-- Turns the wheels by one, the fastest wheel first, and tells whether all of them came round. -/
def turn (width : UInt64) : List UInt64 → List UInt64 × Bool
  | [] => ([], true)
  | d :: ds =>
    if d + 1 < width then ((d + 1) :: ds, false)
    else (0 :: (turn width ds).1, (turn width ds).2)

/-- A grid with a wheel for each position, the fastest wheel first. -/
structure Odometer where
  low : Int32
  width : UInt64
  wheels : List UInt64
  done : Bool

namespace Odometer

def between (low high : Int32) : Odometer :=
  let extent := high.toInt64 - low.toInt64 + 1
  let width := if 0 ≤ extent then extent.toUInt64 else 0
  ⟨low, width, List.replicate 6 0, width == 0⟩

/-- The word so far above the low end. -/
def word (o : Odometer) (d : UInt64) : Int32 := (o.low.toInt64 + d.toInt64).toInt32

def item (o : Odometer) : Sextuple := .ofFn fun p => o.word (o.wheels.getD (5 - p.index) 0)

/-- One call: the sextuple that the wheels show, and the wheels turned. -/
def call (o : Odometer) : Option Sextuple × Odometer :=
  if o.done then (none, o)
  else (some o.item, ⟨o.low, o.width, (turn o.width o.wheels).1, (turn o.width o.wheels).2⟩)

end Odometer

lemma toInt_toInt64 {x : UInt64} (h : x.toNat < 2 ^ 63) : x.toInt64.toInt = x.toNat :=
  BitVec.toInt_eq_toNat_of_lt (by change 2 * x.toNat < 2 ^ 64; omega)

lemma toNat_toUInt64 {x : Int64} (h : 0 ≤ x.toInt) : (x.toUInt64.toNat : ℤ) = x.toInt := by
  have hcond := BitVec.toInt_eq_toNat_cond x.toBitVec
  have hnat : x.toUInt64.toNat = x.toBitVec.toNat := rfl
  have hint : x.toInt = x.toBitVec.toInt := rfl
  have hlt := x.toBitVec.isLt
  split at hcond <;> omega

/-- The number on some wheels. -/
def wheelNumber (width : ℕ) (ds : List UInt64) : ℕ := Nat.ofDigits width (ds.map UInt64.toNat)

lemma wheelNumber_cons (width : ℕ) (d : UInt64) (ds : List UInt64) :
    wheelNumber width (d :: ds) = d.toNat + width * wheelNumber width ds := Nat.ofDigits_cons

lemma wheelNumber_lt {width : ℕ} {ds : List UInt64} (h : ∀ d ∈ ds, d.toNat < width) :
    wheelNumber width ds < width ^ ds.length := by
  induction ds with
  | nil => exact Nat.one_pos
  | cons d ds ih =>
    obtain ⟨hd, hds⟩ := List.forall_mem_cons.mp h
    have hmul := Nat.mul_le_mul_left width (Nat.succ_le_of_lt (ih hds))
    rw [Nat.mul_succ] at hmul
    rw [wheelNumber_cons, List.length_cons, pow_succ']
    omega

/-- A wheel shows the digit of the number in its place. -/
lemma wheelNumber_div_mod {width : ℕ} {ds : List UInt64} (h : ∀ d ∈ ds, d.toNat < width) {i : ℕ}
    (hi : i < ds.length) : wheelNumber width ds / width ^ i % width = (ds.getD i 0).toNat := by
  induction ds generalizing i with
  | nil => cases hi
  | cons d ds ih =>
    obtain ⟨hd, hds⟩ := List.forall_mem_cons.mp h
    rw [wheelNumber_cons]
    cases i with
    | zero =>
      rw [pow_zero, Nat.div_one, Nat.add_mul_mod_self_left, Nat.mod_eq_of_lt hd]
      rfl
    | succ i =>
      rw [pow_succ', ← Nat.div_div_eq_div_mul, Nat.add_mul_div_left _ _ (by omega),
        Nat.div_eq_of_lt hd, Nat.zero_add, ih hds (Nat.lt_of_succ_lt_succ hi)]
      rfl

section Turn
variable {width : UInt64}

lemma length_turn (ds : List UInt64) : (turn width ds).1.length = ds.length := by
  induction ds with
  | nil => rfl
  | cons d ds ih =>
    rw [turn]
    split
    · rfl
    · rw [List.length_cons, List.length_cons, ih]

lemma turn_lt {ds : List UInt64} (h : ∀ d ∈ ds, d.toNat < width.toNat) :
    ∀ d ∈ (turn width ds).1, d.toNat < width.toNat := by
  induction ds with
  | nil => exact h
  | cons d ds ih =>
    obtain ⟨hd, hds⟩ := List.forall_mem_cons.mp h
    rw [turn]
    split
    · next hlt => exact List.forall_mem_cons.mpr ⟨UInt64.lt_iff_toNat_lt.mp hlt, hds⟩
    · exact List.forall_mem_cons.mpr ⟨Nat.lt_of_le_of_lt (Nat.zero_le _) hd, ih hds⟩

/-- A turn adds one; the carry out of the last wheel is worth the whole number of the wheels. -/
theorem wheelNumber_turn {ds : List UInt64} (h : ∀ d ∈ ds, d.toNat < width.toNat) :
    wheelNumber width.toNat (turn width ds).1 +
      (if (turn width ds).2 then width.toNat ^ ds.length else 0) =
        wheelNumber width.toNat ds + 1 := by
  induction ds with
  | nil => rfl
  | cons d ds ih =>
    obtain ⟨hd, hds⟩ := List.forall_mem_cons.mp h
    have hwidth := width.toNat_lt
    have hsucc : (d + 1).toNat = d.toNat + 1 := by
      rw [UInt64.toNat_add, UInt64.toNat_one]
      exact Nat.mod_eq_of_lt (by omega)
    rw [turn]
    split
    · simp only [wheelNumber_cons, hsucc, Bool.false_eq_true, if_false]
      omega
    · next hfull =>
      rw [UInt64.lt_iff_toNat_lt, hsucc] at hfull
      have hsame : width.toNat = d.toNat + 1 := by omega
      simp only [wheelNumber_cons, List.length_cons, UInt64.toNat_zero]
      calc 0 + width.toNat * wheelNumber width.toNat (turn width ds).1 +
            (if (turn width ds).2 then width.toNat ^ (ds.length + 1) else 0)
          = width.toNat * (wheelNumber width.toNat (turn width ds).1 +
              if (turn width ds).2 then width.toNat ^ ds.length else 0) := by
            split <;> ring
        _ = width.toNat * (wheelNumber width.toNat ds + 1) := by rw [ih hds]
        _ = d.toNat + width.toNat * wheelNumber width.toNat ds + 1 := by
            rw [Nat.mul_succ, hsame]
            omega

end Turn

lemma Grid.width_le (g : Grid) : g.width ≤ 4294967296 := by
  have hl := g.low.le_toInt
  have hu := g.high.toInt_lt
  rw [width]
  omega

namespace Odometer
variable {o : Odometer} {g : Grid}

/-- The 64-bit sum is exact. -/
lemma toInt_sum (o : Odometer) {d : UInt64} (hd : d.toNat < 4294967296) :
    (o.low.toInt64 + d.toInt64).toInt = o.low.toInt + d.toNat := by
  have hl := o.low.le_toInt
  have hu := o.low.toInt_lt
  rw [Int64.toInt_add, Int32.toInt_toInt64, toInt_toInt64 (by omega)]
  exact Int.bmod_eq_of_le (by omega) (by omega)

lemma word_eq (hlow : o.low = g.low) {d : UInt64} (hd : d.toNat < g.width) :
    o.word d = g.word d.toNat := by
  have hwidth := g.width_le
  rw [word, ← Int64.ofInt_toInt (o.low.toInt64 + d.toInt64), o.toInt_sum (by omega),
    Int64.toInt32_ofInt, hlow]
  rfl

/-- The wheels show the place where the grid stands, until all places are used up. -/
structure Shows (o : Odometer) (g : Grid) : Prop where
  low_eq : o.low = g.low
  width_eq : o.width.toNat = g.width
  length_eq : o.wheels.length = 6
  done_iff : o.done = true ↔ g.size ≤ g.index
  wheels_lt : g.index < g.size → ∀ d ∈ o.wheels, d.toNat < o.width.toNat
  number_eq : g.index < g.size → wheelNumber g.width o.wheels = g.index

lemma Shows.item_eq (h : o.Shows g) (hindex : g.index < g.size) : o.item = g.item g.index := by
  apply Slots.ext_get
  intro p
  have hp : 5 - p.index < o.wheels.length := by
    rw [h.length_eq]
    omega
  have hdigit := wheelNumber_div_mod (h.wheels_lt hindex) hp
  rw [h.width_eq, h.number_eq hindex] at hdigit
  rw [item, Slots.get_ofFn, Grid.get_item, hdigit]
  refine word_eq h.low_eq ?_
  rw [← hdigit]
  exact Nat.mod_lt _ (Grid.width_pos_of_lt_size hindex)

/-- Related counters give the same answer to a call, and stay related. -/
theorem Shows.call (h : o.Shows g) : o.call.1 = g.call.1 ∧ o.call.2.Shows g.call.2 := by
  rcases Nat.lt_or_ge g.index g.size with hindex | hindex
  · have hrunning : ¬o.done = true := fun hdone => Nat.not_le.mpr hindex (h.done_iff.mp hdone)
    have hturn := wheelNumber_turn (h.wheels_lt hindex)
    rw [h.width_eq, h.length_eq, h.number_eq hindex] at hturn
    have hsize : g.size = g.width ^ 6 := rfl
    rw [Odometer.call, if_neg hrunning, Grid.call_of_lt hindex]
    refine ⟨congrArg some (h.item_eq hindex), h.low_eq, h.width_eq, ?_, ?_, ?_, ?_⟩
    · exact (length_turn _).trans h.length_eq
    · have hlt := wheelNumber_lt (turn_lt (h.wheels_lt hindex))
      rw [h.width_eq, length_turn, h.length_eq] at hlt
      change (turn o.width o.wheels).2 = true ↔ g.size ≤ g.index + 1
      cases hdone : (turn o.width o.wheels).2 with
      | false =>
        simp only [hdone, Bool.false_eq_true, if_false, false_iff] at hturn ⊢
        omega
      | true =>
        simp only [hdone, if_true, true_iff] at hturn ⊢
        omega
    · exact fun _ => turn_lt (h.wheels_lt hindex)
    · intro hnext
      change g.index + 1 < g.size at hnext
      change wheelNumber g.width (turn o.width o.wheels).1 = g.index + 1
      split at hturn <;> omega
  · rw [Odometer.call, if_pos (h.done_iff.mpr hindex), Grid.call_of_le hindex]
    exact ⟨rfl, h⟩

lemma toNat_width_between (low high : Int32) :
    (between low high).width.toNat = (Grid.between low high).width := by
  have hl := low.le_toInt
  have hl' := low.toInt_lt
  have hh := high.le_toInt
  have hh' := high.toInt_lt
  have hextent : (high.toInt64 - low.toInt64 + 1).toInt = high.toInt - low.toInt + 1 := by
    have hone : (1 : Int64).toInt = 1 := rfl
    rw [Int64.toInt_add, Int64.toInt_sub, Int32.toInt_toInt64, Int32.toInt_toInt64, hone,
      Int.bmod_eq_of_le (n := high.toInt - low.toInt) (by omega) (by omega)]
    exact Int.bmod_eq_of_le (by omega) (by omega)
  have hwidth : (Grid.between low high).width = (high.toInt - low.toInt + 1).toNat := rfl
  rw [hwidth, between]
  dsimp only
  split
  · next hpos =>
    rw [Int64.le_iff_toInt_le, Int64.toInt_zero] at hpos
    have hcast := toNat_toUInt64 hpos
    omega
  · next hneg =>
    rw [Int64.le_iff_toInt_le, Int64.toInt_zero] at hneg
    rw [UInt64.toNat_zero]
    omega

theorem shows_between (low high : Int32) : (between low high).Shows (.between low high) := by
  have hwidth := toNat_width_between low high
  have hsize : (Grid.between low high).size = (Grid.between low high).width ^ 6 := rfl
  have hzeros : wheelNumber (Grid.between low high).width (List.replicate 6 0) = 0 := by
    simp [wheelNumber, Nat.ofDigits]
  have hdone : (between low high).done = ((between low high).width == 0) := rfl
  refine ⟨rfl, hwidth, rfl, ?_, ?_, fun _ => hzeros⟩
  · rw [hdone, beq_iff_eq, ← UInt64.toNat_inj, hwidth, hsize]
    change _ ↔ _ ≤ 0
    simp
  · intro hindex d hd
    have hpos := Grid.width_pos_of_lt_size hindex
    obtain rfl : d = 0 := List.eq_of_mem_replicate hd
    rw [hwidth]
    exact hpos

/-- An odometer gives the same answers as the grid, call after call. -/
theorem nthAnswer_between (low high : Int32) (k : ℕ) :
    nthAnswer call k (between low high) = nthAnswer Grid.call k (.between low high) :=
  nthAnswer_congr Shows.call (shows_between low high) k

end Odometer
end VerifierBench
