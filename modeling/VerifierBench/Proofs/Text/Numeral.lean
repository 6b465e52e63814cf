import Mathlib.Data.Int.Notation
import Mathlib.Data.Nat.Notation
import Mathlib.Tactic.Lemma
import VerifierBench.Number.Range
import VerifierBench.Text.Numeral

/-! Numerals and their values. A numeral is read exactly if it has digits only behind its sign and its
value is in range, however many zeros it begins with; the value is that of the digits. -/
namespace VerifierBench.Text
variable {c : Char} {cs : List Char} {top acc d n : ℕ} {overflow : NumeralError}

/-- A numeral without a minus sign, and its value. -/
def IsNatural (cs : List Char) (n : ℕ) : Prop :=
  ∃ sign digits, cs = sign ++ digits ∧ (sign = [] ∨ sign = ['+']) ∧ digits ≠ [] ∧
    (∀ c ∈ digits, c.isDigit = true) ∧ Nat.ofDigitChars 10 digits 0 = n

lemma isDigit_iff (c : Char) : c.isDigit = true ↔ 48 ≤ c.toNat ∧ c.toNat ≤ 57 := by
  simp only [Char.isDigit, Bool.and_eq_true, decide_eq_true_eq, ge_iff_le,
    UInt32.le_iff_toNat_le]
  rfl

lemma digit?_eq_some_iff : digit? c = some d ↔ c.isDigit = true ∧ c.toNat - 48 = d := by
  rw [digit?, isDigit_iff]
  split
  · next h => simp [h]
  · next h => simp [h]

lemma digit?_eq_none_iff : digit? c = none ↔ c.isDigit = false := by
  rw [digit?, Bool.eq_false_iff, ne_eq, isDigit_iff]
  split
  · next h => simp [h]
  · next h => simp [h]

lemma ofDigitChars_cons (c : Char) (cs : List Char) (acc : ℕ) :
    Nat.ofDigitChars 10 (c :: cs) acc = Nat.ofDigitChars 10 cs (acc * 10 + (c.toNat - 48)) := by
  rw [Nat.mul_comm]
  rfl

/-- More digits make no smaller value. -/
lemma le_ofDigitChars (cs : List Char) (acc : ℕ) : acc ≤ Nat.ofDigitChars 10 cs acc := by
  induction cs generalizing acc with
  | nil => exact Nat.le_refl acc
  | cons c cs ih =>
    rw [ofDigitChars_cons]
    have h := ih (acc * 10 + (c.toNat - 48))
    omega

/-- Digits are read to the end exactly if their whole value is in range. -/
theorem readDigits_eq_ok_iff (hacc : acc ≤ top) : readDigits top overflow acc cs = .ok n ↔
    (∀ c ∈ cs, c.isDigit = true) ∧ Nat.ofDigitChars 10 cs acc = n ∧ n ≤ top := by
  induction cs generalizing acc with
  | nil =>
    simp only [readDigits, Except.ok.injEq, List.not_mem_nil, false_implies, implies_true, true_and]
    constructor
    · rintro rfl
      exact ⟨rfl, hacc⟩
    · rintro ⟨hvalue, -⟩
      exact hvalue
  | cons c cs ih =>
    rw [readDigits, ofDigitChars_cons, List.forall_mem_cons]
    cases hd : digit? c with
    | none => simp [digit?_eq_none_iff.mp hd]
    | some d =>
      obtain ⟨hdigit, rfl⟩ := digit?_eq_some_iff.mp hd
      by_cases hle : acc * 10 + (c.toNat - 48) ≤ top
      · simp only [if_pos hle, ih hle, hdigit, true_and]
      · -- The value only grows from here on.
        have hgrows := le_ofDigitChars cs (acc * 10 + (c.toNat - 48))
        simp only [if_neg hle, reduceCtorEq, false_iff]
        omega

theorem readMagnitude_eq_ok_iff : readMagnitude top overflow cs = .ok n ↔
    cs ≠ [] ∧ (∀ c ∈ cs, c.isDigit = true) ∧ Nat.ofDigitChars 10 cs 0 = n ∧ n ≤ top := by
  cases cs with
  | nil => simp [readMagnitude]
  | cons c cs => simp [readMagnitude, readDigits_eq_ok_iff]

lemma map_eq_ok_iff {α β : Type} {x : Except NumeralError α} {g : α → β} {b : β} :
    x.map g = .ok b ↔ ∃ a, x = .ok a ∧ g a = b := by
  cases x <;> simp [Except.map]

section Signs

lemma isNatural_nil : ¬ IsNatural [] n := by
  rintro ⟨sign, digits, hcs, -, hne, -⟩
  exact hne (List.append_eq_nil_iff.mp hcs.symm).2

lemma isNatural_plus : IsNatural ('+' :: cs) n ↔
    cs ≠ [] ∧ (∀ c ∈ cs, c.isDigit = true) ∧ Nat.ofDigitChars 10 cs 0 = n := by
  constructor
  · rintro ⟨sign, digits, hcs, rfl | rfl, hne, hdigits, hvalue⟩
    · -- Without the sign, a plus would be a digit.
      rw [List.nil_append] at hcs
      exact absurd (hdigits '+' (hcs ▸ List.mem_cons_self)) (by decide)
    · cases hcs
      exact ⟨hne, hdigits, hvalue⟩
  · rintro ⟨hne, hdigits, hvalue⟩
    exact ⟨['+'], cs, rfl, .inr rfl, hne, hdigits, hvalue⟩

lemma isNatural_of_head (h : c ≠ '+') : IsNatural (c :: cs) n ↔
    (∀ d ∈ c :: cs, d.isDigit = true) ∧ Nat.ofDigitChars 10 (c :: cs) 0 = n := by
  constructor
  · rintro ⟨sign, digits, hcs, rfl | rfl, -, hdigits, hvalue⟩
    · cases hcs
      exact ⟨hdigits, hvalue⟩
    · cases hcs
      exact absurd rfl h
  · rintro ⟨hdigits, hvalue⟩
    exact ⟨[], c :: cs, rfl, .inl rfl, List.cons_ne_nil c cs, hdigits, hvalue⟩

lemma IsNatural.notMem (h : IsNatural cs n) (hplus : c ≠ '+') (hdigit : c.isDigit = false) :
    c ∉ cs := by
  obtain ⟨sign, digits, rfl, hsign, -, hdigits, -⟩ := h
  rw [List.mem_append]
  rintro (hc | hc)
  · rcases hsign with rfl | rfl
    · cases hc
    · exact hplus (List.mem_singleton.mp hc)
  · exact absurd (hdigits c hc) (by simp [hdigit])

lemma readUnsigned_plus (width : ℕ) (cs : List Char) :
    readUnsigned width ('+' :: cs) = readMagnitude (Nat.pow 2 width - 1) .tooLarge cs := rfl

lemma readUnsigned_of_head (width : ℕ) (h : c ≠ '+') :
    readUnsigned width (c :: cs) = readMagnitude (Nat.pow 2 width - 1) .tooLarge (c :: cs) := by
  unfold readUnsigned
  split
  · next hnil => cases hnil
  · next hplus =>
    cases hplus
    exact absurd rfl h
  · rfl

theorem readUnsigned_eq_ok_iff (width : ℕ) (cs : List Char) (n : ℕ) :
    readUnsigned width cs = .ok n ↔ IsNatural cs n ∧ n ≤ Nat.pow 2 width - 1 := by
  cases cs with
  | nil => simp [readUnsigned, isNatural_nil]
  | cons c cs =>
    by_cases hc : c = '+'
    · subst hc
      rw [readUnsigned_plus, readMagnitude_eq_ok_iff, isNatural_plus]
      simp only [and_assoc]
    · rw [readUnsigned_of_head width hc, readMagnitude_eq_ok_iff, isNatural_of_head hc]
      simp only [ne_eq, reduceCtorEq, not_false_eq_true, true_and, and_assoc]

/-- A 64-bit natural number is read exactly from the numerals that have its value. -/
theorem readUInt64_eq_ok_iff (cs : List Char) (n : UInt64) :
    readUInt64 cs = .ok n ↔ IsNatural cs n.toNat := by
  have htop : Nat.pow 2 64 - 1 = 18446744073709551615 := rfl
  have hexact := readUnsigned_eq_ok_iff 64 cs
  rw [htop] at hexact
  rw [readUInt64, map_eq_ok_iff]
  constructor
  · rintro ⟨m, hread, rfl⟩
    obtain ⟨hm, hle⟩ := (hexact m).mp hread
    rwa [UInt64.toNat_ofNat_of_lt' (by rw [UInt64.size]; omega)]
  · intro h
    have hlt := n.toNat_lt
    exact ⟨n.toNat, (hexact n.toNat).mpr ⟨h, by omega⟩, UInt64.ofNat_toNat⟩

end Signs

/-- A numeral with any sign or none, and its value. -/
inductive IsInteger : List Char → ℤ → Prop
  | natural {cs : List Char} {n : ℕ} (h : IsNatural cs n) : IsInteger cs n
  | negative {digits : List Char} (hne : digits ≠ []) (hdigits : ∀ c ∈ digits, c.isDigit = true) :
      IsInteger ('-' :: digits) (-(Nat.ofDigitChars 10 digits 0 : ℕ))

section Signed
variable {z : ℤ}

lemma isInteger_minus : IsInteger ('-' :: cs) z ↔
    cs ≠ [] ∧ (∀ c ∈ cs, c.isDigit = true) ∧ z = -(Nat.ofDigitChars 10 cs 0 : ℕ) := by
  constructor
  · rintro (h | ⟨hne, hdigits⟩)
    · exact absurd List.mem_cons_self (h.notMem (by decide) (by decide))
    · exact ⟨hne, hdigits, rfl⟩
  · rintro ⟨hne, hdigits, rfl⟩
    exact .negative hne hdigits

lemma isInteger_of_head (h : c ≠ '-') :
    IsInteger (c :: cs) z ↔ ∃ n : ℕ, z = n ∧ IsNatural (c :: cs) n := by
  constructor
  · rintro (hnatural | -)
    · exact ⟨_, rfl, hnatural⟩
    · exact absurd rfl h
  · rintro ⟨n, rfl, hnatural⟩
    exact .natural hnatural

lemma IsInteger.notMem (h : IsInteger cs z) (hplus : c ≠ '+') (hminus : c ≠ '-')
    (hdigit : c.isDigit = false) : c ∉ cs := by
  cases h with
  | natural hnatural => exact hnatural.notMem hplus hdigit
  | negative hne hdigits =>
    refine List.not_mem_cons_of_ne_of_not_mem hminus fun hc => ?_
    rw [hdigits c hc] at hdigit
    cases hdigit

lemma readSigned_minus (width : ℕ) (cs : List Char) : readSigned width ('-' :: cs) =
    (readMagnitude (Nat.pow 2 (width - 1)) .tooSmall cs).map fun n => -Int.ofNat n := rfl

lemma readSigned_of_head (width : ℕ) (h : c ≠ '-') :
    readSigned width (c :: cs) = (readUnsigned (width - 1) (c :: cs)).map Int.ofNat := by
  by_cases hplus : c = '+'
  · subst hplus
    rfl
  · rw [readUnsigned_of_head _ hplus]
    unfold readSigned
    split
    · next hnil => cases hnil
    · next hcs =>
      cases hcs
      exact absurd rfl hplus
    · next hcs =>
      cases hcs
      exact absurd rfl h
    · rfl

/-- A value of the width is read exactly from its numerals; there is one more below zero than above. -/
theorem readSigned_eq_ok_iff (width : ℕ) (cs : List Char) (z : ℤ) : readSigned width cs = .ok z ↔
    IsInteger cs z ∧ -(Nat.pow 2 (width - 1) : ℕ) ≤ z ∧ z < (Nat.pow 2 (width - 1) : ℕ) := by
  have hpos : 0 < Nat.pow 2 (width - 1) := Nat.pow_pos (by decide)
  cases cs with
  | nil =>
    simp only [readSigned, reduceCtorEq, false_iff]
    rintro ⟨⟨hnatural⟩, -⟩
    exact isNatural_nil hnatural
  | cons c cs =>
    by_cases hc : c = '-'
    · subst hc
      rw [readSigned_minus, isInteger_minus, map_eq_ok_iff]
      constructor
      · rintro ⟨n, hread, rfl⟩
        obtain ⟨hne, hdigits, rfl, hle⟩ := readMagnitude_eq_ok_iff.mp hread
        rw [Int.ofNat_eq_natCast]
        exact ⟨⟨hne, hdigits, rfl⟩, by omega, by omega⟩
      · rintro ⟨⟨hne, hdigits, rfl⟩, hle, -⟩
        exact ⟨_, readMagnitude_eq_ok_iff.mpr ⟨hne, hdigits, rfl, by omega⟩, rfl⟩
    · rw [readSigned_of_head width hc, isInteger_of_head hc, map_eq_ok_iff]
      constructor
      · rintro ⟨n, hread, rfl⟩
        obtain ⟨hnatural, hle⟩ := (readUnsigned_eq_ok_iff _ _ n).mp hread
        rw [Int.ofNat_eq_natCast]
        exact ⟨⟨n, rfl, hnatural⟩, by omega, by omega⟩
      · rintro ⟨⟨n, rfl, hnatural⟩, -, hlt⟩
        exact ⟨n, (readUnsigned_eq_ok_iff _ _ n).mpr ⟨hnatural, by omega⟩, rfl⟩

/-- A 32-bit word is read exactly from the numerals of its value. -/
theorem readInt32_eq_ok_iff (cs : List Char) (x : Int32) :
    readInt32 cs = .ok x ↔ IsInteger cs x.toInt := by
  have hexact := readSigned_eq_ok_iff 32 cs
  have hpow : Nat.pow 2 (32 - 1) = 2147483648 := rfl
  rw [hpow] at hexact
  rw [readInt32, map_eq_ok_iff]
  constructor
  · rintro ⟨z, hread, rfl⟩
    obtain ⟨hinteger, hl, hu⟩ := (hexact z).mp hread
    rwa [toInt_ofInt_of_isInt32 ((isInt32_iff z).mpr ⟨by omega, by omega⟩)]
  · intro hinteger
    have hl := x.le_toInt
    have hu := x.toInt_lt
    exact ⟨x.toInt, (hexact x.toInt).mpr ⟨hinteger, by omega, by omega⟩, Int32.ofInt_toInt x⟩

end Signed

lemma isNatural_toDigits (n : ℕ) : IsNatural (Nat.toDigits 10 n) n :=
  ⟨[], Nat.toDigits 10 n, rfl, .inl rfl, Nat.toDigits_ne_nil,
    fun _ => Nat.isDigit_of_mem_toDigits (by decide) (by decide), Nat.ofDigitChars_ten_toDigits⟩

lemma toList_toString (n : ℤ) : (toString n).toList =
    if 0 ≤ n then Nat.toDigits 10 n.toNat else '-' :: Nat.toDigits 10 (-n).toNat := by
  rw [Int.toString_eq_repr, Int.repr_eq_if]
  split
  · exact Nat.toList_repr
  · rw [String.toList_append, Nat.toList_repr]
    rfl

/-- What is written for an integer is a numeral of it. -/
lemma isInteger_toString (n : ℤ) : IsInteger (toString n).toList n := by
  rw [toList_toString]
  split
  · next hpos =>
    have h := IsInteger.natural (isNatural_toDigits n.toNat)
    rwa [Int.toNat_of_nonneg hpos] at h
  · next hneg =>
    refine isInteger_minus.mpr ⟨Nat.toDigits_ne_nil,
      fun _ => Nat.isDigit_of_mem_toDigits (by decide) (by decide), ?_⟩
    rw [Nat.ofDigitChars_ten_toDigits]
    omega

end VerifierBench.Text
