import VerifierBench.Number.Range
import VerifierBench.Toml.Basic

/-! Numbers in TOML: integers of four bases, decimals, infinities, and what is no number. A number
begins with a word; behind it may stand a point with a second word, and a plus sign with the digits
of an exponent. -/
namespace VerifierBench.Toml

/-- The characters of words, which keys and numbers are made of. -/
def isWordChar (c : Char) : Bool := c.isAlphanum || c = '_' || c = '-'

/-- The word at the front of a text and the rest. -/
def readWord (cs : List Char) : Option (List Char × List Char) :=
  match cs.takeWhile isWordChar with
  | [] => none
  | word => some (word, cs.dropWhile isWordChar)

def isDigitOf (base : Nat) (c : Char) : Bool := (Text.hexDigit? c).any fun d => d < base

/-- The digits at the front of a text, of which there has to be one, and the rest. Underscores may
stand singly between digits. -/
def takeDigits (base : Nat) : List Char → Option (List Char × List Char)
  | c :: '_' :: cs =>
    if isDigitOf base c then (takeDigits base cs).map fun (ds, rest) => (c :: ds, rest) else none
  | c :: d :: cs =>
    if !isDigitOf base c then none
    else if isDigitOf base d then
      (takeDigits base (d :: cs)).map fun (ds, rest) => (c :: ds, rest)
    else some ([c], d :: cs)
  | [c] => if isDigitOf base c then some ([c], []) else none
  | [] => none

/-- Decimal digits without a leading zero and the rest. -/
def takeWhole (cs : List Char) : Option (List Char × List Char) :=
  (takeDigits 10 cs).filter fun (ds, _) => ds.length = 1 ∨ ds.head? ≠ some '0'

def valueOfDigits (base : Nat) (ds : List Char) : Nat :=
  ds.foldl (fun n c => n * base + (Text.hexDigit? c).getD 0) 0

/-- Whether a minus sign stands in front, and the rest. -/
def takeSign : List Char → Bool × List Char
  | '-' :: cs => (true, cs)
  | cs => (false, cs)

def withSign (negative : Bool) (n : Nat) : Int := if negative then - Int.ofNat n else n

/-- A 64-bit integer of the given digits, behind which nothing may stand. -/
def integer? (base : Nat) (negative : Bool) (digits : Option (List Char × List Char)) :
    Option Value :=
  match digits with
  | some (ds, []) =>
    let n := withSign negative (valueOfDigits base ds)
    if isInt64 n then some (.int n) else none
  | _ => none

def isExponentMark (c : Char) : Bool := c = 'e' || c = 'E'

/-- The exponent in the rest of a word; a plus sign ends the word, so digits may follow it. -/
def readExponent (word rest : List Char) : Option (Int × List Char) :=
  match word with
  | [] => some (0, rest)
  | mark :: digits => do
    if !isExponentMark mark then none
    else if digits = [] then
      let (digits, rest) ← readWord ((Text.dropStart ['+'] rest).getD rest)
      match takeDigits 10 digits with
      | some (ds, []) => some (Int.ofNat (valueOfDigits 10 ds), rest)
      | _ => none
    else
      let (negative, digits) := takeSign digits
      match takeDigits 10 digits with
      | some (ds, []) => some (withSign negative (valueOfDigits 10 ds), rest)
      | _ => none

/-- A finite double from its first word, the word behind its point, and the text after both. -/
def readReal (word : List Char) (part : Option (List Char)) (rest : List Char) :
    Option (Value × List Char) := do
  let (negative, digits) := takeSign word
  let (whole, left) ← takeWhole digits
  let (part, left) ← match part, left with
    | none, left => some ([], left)
    | some part, [] => takeDigits 10 part
    | some _, _ => none
  let (exponent, rest) ← readExponent left rest
  match Binary64.ofDecimal negative (valueOfDigits 10 (whole ++ part)) (exponent - part.length) with
  | .finite negative m e => some (.real (.finite negative m e), rest)
  | _ => none

/-- The words for infinities and for what is no number. -/
def special? (word : List Char) : Option Binary64 :=
  let (negative, name) := takeSign word
  if name = "inf".toList then some (.infinite negative)
  else if name = "nan".toList then some .notANumber
  else none

/-- A number from its first word and the text after it. Only decimal integers have a minus sign, and
a word with an exponent has no point behind it. -/
def readNumber (word rest : List Char) : Option (Value × List Char) :=
  match word with
  | '0' :: 'x' :: ds => (integer? 16 false (takeDigits 16 ds)).map (·, rest)
  | '0' :: 'o' :: ds => (integer? 8 false (takeDigits 8 ds)).map (·, rest)
  | '0' :: 'b' :: ds => (integer? 2 false (takeDigits 2 ds)).map (·, rest)
  | _ =>
    if word.any isExponentMark then readReal word none rest
    else match rest with
      | '.' :: rest => do
        let (part, rest) ← readWord rest
        readReal word (some part) rest
      | rest =>
        match special? word with
        | some x => some (.real x, rest)
        | none =>
          let (negative, digits) := takeSign word
          (integer? 10 negative (takeWhole digits)).map (·, rest)

end VerifierBench.Toml
