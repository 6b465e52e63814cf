/-! Double-precision numbers as exact dyadic fractions. A decimal is rounded to the nearest double,
and a double is written with the fewest digits that read back. -/
namespace VerifierBench

/-- A double: `mantissa * 2 ^ exponent` with a sign, an infinity, or no number. Finite values made
by `ofFraction` have a mantissa below `2 ^ 53`, and zero has the exponent 0. -/
inductive Binary64
  | finite (negative : Bool) (mantissa : Nat) (exponent : Int)
  | infinite (negative : Bool)
  | notANumber
  deriving DecidableEq, Repr

namespace Binary64

/-- The quotient rounded to the nearest integer; a half goes to the even neighbour. -/
def roundDiv (num den : Nat) : Nat :=
  let q := num / den
  let twice := 2 * (num % den)
  if twice < den then q else if den < twice then q + 1 else q + q % 2

def scaleTwo (num den : Nat) (k : Int) : Nat × Nat :=
  if 0 ≤ k then (num * Nat.pow 2 k.toNat, den) else (num, den * Nat.pow 2 (-k).toNat)

/-- The double nearest to a fraction with a sign of its own; of two the one with an even mantissa. -/
def ofFraction (negative : Bool) (num den : Nat) : Binary64 :=
  let guess : Int := (Nat.log2 num : Int) - Nat.log2 den - 53
  let (n, d) := scaleTwo num den (-guess)
  let e := max (if n / d < Nat.pow 2 53 then guess else guess + 1) (-1074)
  let (n, d) := scaleTwo num den (-e)
  let m := roundDiv n d
  let (m, e) := if m = Nat.pow 2 53 then (Nat.pow 2 52, e + 1) else (m, e)
  if m = 0 then .finite negative 0 0
  else if e ≤ 971 then .finite negative m e
  else .infinite negative

/-- The fraction `digits * 10 ^ k`. -/
def decimalFraction (digits : Nat) (k : Int) : Nat × Nat :=
  if 0 ≤ k then (digits * Nat.pow 10 k.toNat, 1) else (digits, Nat.pow 10 (-k).toNat)

def decimalLength (n : Nat) : Nat := (Nat.toDigits 10 n).length

/-- The double nearest to `digits * 10 ^ k`. Far outside the range of doubles nothing is
computed. -/
def ofDecimal (negative : Bool) (digits : Nat) (k : Int) : Binary64 :=
  let top := (decimalLength digits : Int) + k
  if digits = 0 ∨ top < -330 then .finite negative 0 0
  else if 310 < top then .infinite negative
  else
    let (num, den) := decimalFraction digits k
    ofFraction negative num den

/-- The absolute value of a finite double as a fraction. -/
def fraction (mantissa : Nat) (exponent : Int) : Nat × Nat :=
  scaleTwo mantissa 1 exponent

/-- The product with a fraction, rounded once. -/
def timesFraction (num den : Nat) : Binary64 → Binary64
  | finite negative m e =>
    let (n, d) := fraction m e
    ofFraction negative (n * num) (d * den)
  | x => x

def isZero : Binary64 → Bool
  | finite _ m _ => m == 0
  | _ => false

/-- The nearest integer, a half going away from zero; no integer for infinities and non-numbers. -/
def round? : Binary64 → Option Int
  | finite negative m e =>
    let (num, den) := fraction m e
    let magnitude : Int := ((2 * num + den) / (2 * den) : Nat)
    some (if negative then -magnitude else magnitude)
  | _ => none

/-- The nearest integer of a closed range: the ends for values beyond them, zero for no number. -/
def roundWithin (low high : Int) (x : Binary64) : Int :=
  match x with
  | infinite negative => if negative then low else high
  | notANumber => 0
  | finite .. => max low (min high (x.round?.getD 0))

/-- The decimal exponent of the first digit of a positive fraction, counted so that the fraction is
below `10 ^ k` and not below `10 ^ (k - 1)`; the guess is corrected by at most two. -/
def firstDigitExponent (num den : Nat) : Int :=
  let guess : Int := (decimalLength num : Int) - decimalLength den
  let below (k : Int) : Bool :=
    let (n, d) := decimalFraction 1 k
    num * d < n * den
  if below (guess - 1) then guess - 1
  else if below guess then guess
  else if below (guess + 1) then guess + 1
  else guess + 2

/-- The two neighbours of a fraction on the grid of multiples of `10 ^ k`, the nearer one first; of
two that are equally near the upper one. -/
def neighbours (num den : Nat) (k : Int) : List Nat :=
  let (n, d) := decimalFraction 1 (-k)
  let scaledNum := num * n
  let scaledDen := den * d
  let low := scaledNum / scaledDen
  if 2 * (scaledNum % scaledDen) < scaledDen then [low, low + 1] else [low + 1, low]

/-- The first decimal of one, two, ... digits that reads back as a positive double. -/
def shortestFrom (m : Nat) (e : Int) (top : Int) : (places : List Nat) → Nat × Int
  | [] => (m, 0)
  | n :: more =>
    let (num, den) := fraction m e
    let k := top - n
    let readsBack (digits : Nat) : Bool := ofDecimal false digits k = finite false m e
    match (neighbours num den k).find? readsBack with
    | some digits => (digits, k)
    | none => shortestFrom m e top more

/-- The shortest decimal `digits * 10 ^ k` of a positive finite double. -/
def shortest (m : Nat) (e : Int) : Nat × Int :=
  let (num, den) := fraction m e
  shortestFrom m e (firstDigitExponent num den) ((List.range 17).map (· + 1))

/-- A decimal in positional notation, without zeros at the end of the fraction. -/
def positional (digits : Nat) (k : Int) : List Char :=
  let ds := Nat.toDigits 10 digits
  if 0 ≤ k then ds ++ List.replicate k.toNat '0'
  else
    let places := (-k).toNat
    let padded := List.replicate (places + 1 - ds.length) '0' ++ ds
    let whole := padded.take (padded.length - places)
    let part := ((padded.drop (padded.length - places)).reverse.dropWhile (· = '0')).reverse
    if part = [] then whole else whole ++ '.' :: part

/-- The shortest text that reads back, in positional notation. -/
def text : Binary64 → String
  | notANumber => "NaN"
  | infinite negative => if negative then "-inf" else "inf"
  | finite negative m e =>
    let sign := if negative then "-" else ""
    if m = 0 then sign ++ "0"
    else
      let (digits, k) := shortest m e
      sign ++ String.ofList (positional digits k)

end Binary64
end VerifierBench
