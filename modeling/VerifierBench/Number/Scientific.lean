import VerifierBench.Number.Binary64
import VerifierBench.Text.Numeral

/-! Decimals in scientific form with a significand of 64 bits. Digits that do not fit are dropped,
and the value is found in rounded steps, so it may differ from the nearest double in its last
places. -/
namespace VerifierBench

/-- The decimal `significand * 10 ^ exponent`. -/
structure Scientific where
  significand : Nat
  exponent : Int
  deriving DecidableEq, Repr

namespace Scientific

/-- Appends digits to a significand up to the first one for which 64 bits are not enough, and counts
the digits that are left. -/
def appendDigits (significand : Nat) : List Char → Nat × Nat
  | [] => (significand, 0)
  | c :: cs =>
    let next := significand * 10 + (Text.digit? c).getD 0
    if next < UInt64.size then appendDigits next cs else (significand, cs.length + 1)

/-- The decimal of the digits before and after a point. A digit that is left out before the point
still counts as a power of ten, and the significand may have room again for those after it. -/
def ofDigits (whole part : List Char) (exponent : Int) : Scientific :=
  let (significand, left) := appendDigits 0 whole
  let (significand, unused) := appendDigits significand part
  ⟨significand, exponent + left - (part.length - unused : Nat)⟩

/-- The greatest power of ten that is a double. -/
def topPower : Nat := 308

/-- The double nearest to a power of ten, as a fraction. -/
def powerOfTen (k : Nat) : Nat × Nat :=
  match Binary64.ofDecimal false 1 k with
  | .finite _ m e => Binary64.fraction m e
  | _ => (1, 1)

def timesPower (k : Nat) (x : Binary64) : Binary64 :=
  let (num, den) := powerOfTen k
  x.timesFraction num den

def overPower (k : Nat) (x : Binary64) : Binary64 :=
  let (num, den) := powerOfTen k
  x.timesFraction den num

/-- The quotient by any power of ten, taken in steps. Two steps by the greatest power already make
zero of every significand. -/
def overPowers (k : Nat) (x : Binary64) : Binary64 :=
  overPower (k % topPower) (Nat.repeat (overPower topPower) (min (k / topPower) 3) x)

/-- The significand as a double, scaled by its power of ten; none if that is not finite. -/
def toBinary64? (negative : Bool) (x : Scientific) : Option Binary64 :=
  let start := Binary64.ofFraction negative x.significand 1
  let scaled :=
    if x.significand = 0 then start
    else if x.exponent < 0 then overPowers (-x.exponent).toNat start
    else if x.exponent ≤ topPower then timesPower x.exponent.toNat start
    else .infinite negative
  match scaled with
  | .finite negative m e => some (.finite negative m e)
  | _ => none

end Scientific
end VerifierBench
