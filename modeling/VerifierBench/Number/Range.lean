/-! The ranges of fixed-width integers. -/
namespace VerifierBench

/-- The integers that a 32-bit signed word can hold. -/
def isInt32 (n : Int) : Bool := decide (-2147483648 ≤ n ∧ n < 2147483648)

def isInt64 (n : Int) : Bool :=
  decide (-9223372036854775808 ≤ n ∧ n < 9223372036854775808)

def isUInt64 (n : Int) : Bool := decide (0 ≤ n ∧ n < 18446744073709551616)

theorem isInt32_iff (n : Int) : isInt32 n = true ↔ -2147483648 ≤ n ∧ n < 2147483648 := by
  simp only [isInt32, decide_eq_true_eq]

theorem isInt64_iff (n : Int) :
    isInt64 n = true ↔ -9223372036854775808 ≤ n ∧ n < 9223372036854775808 := by
  simp only [isInt64, decide_eq_true_eq]

theorem isInt32_toInt (x : Int32) : isInt32 x.toInt = true := by
  have hl := x.le_toInt
  have hu := x.toInt_lt
  simp only [isInt32, decide_eq_true_eq]
  omega

theorem toInt_ofInt_of_isInt32 {n : Int} (h : isInt32 n = true) : (Int32.ofInt n).toInt = n := by
  simp only [isInt32, decide_eq_true_eq] at h
  exact Int32.toInt_ofInt_of_le (by omega) (by omega)

theorem isUInt64_toNat (x : UInt64) : isUInt64 x.toNat = true := by
  have h := x.toNat_lt
  simp only [isUInt64, decide_eq_true_eq]
  omega

end VerifierBench
