import VerifierBench.Number.Binary64
import VerifierBench.Text.Numeral

/-! Setting values as the layers hold them, and their conversions. A value that has no conversion to
the wanted type is malformed for it. -/
namespace VerifierBench

inductive SettingValue
  | null
  | bool (b : Bool)
  | int (n : Int)
  | real (x : Binary64)
  | text (s : String)
  | list
  | table (isEmpty : Bool)
  deriving DecidableEq, Repr

namespace SettingValue

def lower (s : String) : List Char := s.toList.map Char.toLower

/-- The words for yes and no, in any letter case. -/
def word? (s : String) : Option Bool :=
  if ["true", "on", "yes"].any fun w => w.toList = lower s then some true
  else if ["false", "off", "no"].any fun w => w.toList = lower s then some false
  else none

def ofBool (b : Bool) : Int := if b then 1 else 0

def toInt64? : SettingValue → Option Int
  | int n => some n
  | real x => some (x.roundWithin Int64.minValue.toInt Int64.maxValue.toInt)
  | bool b => some (ofBool b)
  | text s =>
    match word? s with
    | some b => some (ofBool b)
    | none => (Text.readInt64 s.toList).toOption
  | _ => none

/-- The value as a word: the low 32 bits of its integer. -/
def toInt32? (v : SettingValue) : Option Int32 := v.toInt64?.map Int32.ofInt

/-- The value as a 64-bit natural number. A negative integer is malformed, a negative fraction is
zero. -/
def toUInt64? : SettingValue → Option UInt64
  | int n => if 0 ≤ n then some (UInt64.ofNat n.toNat) else none
  | real x => some (UInt64.ofNat (x.roundWithin 0 (UInt64.size - 1)).toNat)
  | bool b => some (UInt64.ofNat (ofBool b).toNat)
  | text s =>
    match word? s with
    | some b => some (UInt64.ofNat (ofBool b).toNat)
    | none => (Text.readUInt64 s.toList).toOption
  | _ => none

/-- The value as a truth value: numbers are true unless zero. -/
def toBool? : SettingValue → Option Bool
  | bool b => some b
  | int n => some (n != 0)
  | real x => some !x.isZero
  | text s =>
    match word? s with
    | some b => some b
    | none => if s = "1" then some true else if s = "0" then some false else none
  | _ => none

def toText? : SettingValue → Option String
  | text s => some s
  | bool b => some (if b then "true" else "false")
  | int n => some (toString n)
  | real x => some x.text
  | _ => none

end SettingValue
end VerifierBench
