/-! Checked decimal numerals. A numeral has an optional sign and then ASCII digits only; it is read
from the left and the first problem decides the error, so a digit that leaves the range is reported
before a bad character further right. -/
namespace VerifierBench.Text

/-- Why a text is not a numeral of the wanted range. -/
inductive NumeralError
  | empty
  | invalidDigit
  | tooLarge
  | tooSmall
  deriving DecidableEq, Repr

/-- The explanation shown to the user. -/
def NumeralError.message : NumeralError → String
  | .empty => "cannot parse integer from empty string"
  | .invalidDigit => "invalid digit found in string"
  | .tooLarge => "number too large to fit in target type"
  | .tooSmall => "number too small to fit in target type"

def digit? (c : Char) : Option Nat :=
  if 48 ≤ c.toNat ∧ c.toNat ≤ 57 then some (c.toNat - 48) else none

def hexDigit? (c : Char) : Option Nat :=
  if 97 ≤ c.toNat ∧ c.toNat ≤ 102 then some (c.toNat - 87)
  else if 65 ≤ c.toNat ∧ c.toNat ≤ 70 then some (c.toNat - 55)
  else digit? c

/-- Reads digits after the value `acc`; a value above `top` is the error `overflow`. -/
def readDigits (top : Nat) (overflow : NumeralError) (acc : Nat) :
    List Char → Except NumeralError Nat
  | [] => .ok acc
  | c :: cs =>
    match digit? c with
    | none => .error .invalidDigit
    | some d =>
      if acc * 10 + d ≤ top then readDigits top overflow (acc * 10 + d) cs else .error overflow

/-- Reads digits that must not be missing altogether. -/
def readMagnitude (top : Nat) (overflow : NumeralError) : List Char → Except NumeralError Nat
  | [] => .error .invalidDigit
  | cs => readDigits top overflow 0 cs

/-- Reads a two's-complement integer of the given width. -/
def readSigned (width : Nat) : List Char → Except NumeralError Int
  | [] => .error .empty
  | '+' :: cs => (readMagnitude (Nat.pow 2 (width - 1) - 1) .tooLarge cs).map Int.ofNat
  | '-' :: cs => (readMagnitude (Nat.pow 2 (width - 1)) .tooSmall cs).map fun n => - Int.ofNat n
  | cs => (readMagnitude (Nat.pow 2 (width - 1) - 1) .tooLarge cs).map Int.ofNat

/-- Reads a natural number below `2 ^ width`; a minus sign is a bad digit. -/
def readUnsigned (width : Nat) : List Char → Except NumeralError Nat
  | [] => .error .empty
  | '+' :: cs => readMagnitude (Nat.pow 2 width - 1) .tooLarge cs
  | cs => readMagnitude (Nat.pow 2 width - 1) .tooLarge cs

def readInt32 (cs : List Char) : Except NumeralError Int32 :=
  (readSigned 32 cs).map Int32.ofInt

def readInt64 (cs : List Char) : Except NumeralError Int :=
  readSigned 64 cs

def readUInt64 (cs : List Char) : Except NumeralError UInt64 :=
  (readUnsigned 64 cs).map UInt64.ofNat

end VerifierBench.Text
