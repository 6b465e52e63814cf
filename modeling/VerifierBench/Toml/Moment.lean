import VerifierBench.Text.Fields
import VerifierBench.Text.Numeral

/-! Dates and times in TOML. A moment is a date, a time of day, or both, and both together may name
the distance from universal time. -/
namespace VerifierBench.Toml

structure Date where
  year : Nat
  month : Nat
  day : Nat
  deriving DecidableEq, Repr

structure Time where
  hour : Nat
  minute : Nat
  second : Nat
  nanosecond : Nat
  deriving DecidableEq, Repr

/-- The distance from universal time; minutes have no sign of their own. -/
inductive Offset
  | universal
  | shifted (hours : Int) (minutes : Nat)
  deriving DecidableEq, Repr

inductive Moment
  | date (d : Date)
  | time (t : Time)
  | dateTime (d : Date) (t : Time) (offset : Option Offset)
  deriving DecidableEq, Repr

/-- A number of exactly so many digits and the rest. -/
def readFixed (count : Nat) (cs : List Char) : Option (Nat × List Char) := do
  let digits ← (cs.take count).mapM Text.digit?
  if digits.length = count then
    return (digits.foldl (fun n d => n * 10 + d) 0, cs.drop count)
  else none

def readMark (mark : Char) (cs : List Char) : Option (List Char) := Text.dropStart [mark] cs

namespace Date

/-- Months and days have two digits; every month may have 31 days. -/
def read? (cs : List Char) : Option (Date × List Char) := do
  let (year, cs) ← readFixed 4 cs
  let (month, cs) ← readFixed 2 (← readMark '-' cs)
  let (day, cs) ← readFixed 2 (← readMark '-' cs)
  if 1 ≤ month ∧ month ≤ 12 ∧ 1 ≤ day ∧ day ≤ 31 then return (⟨year, month, day⟩, cs) else none

end Date

namespace Time

/-- The digits behind the point as nanoseconds; digits from the tenth on are dropped. -/
def readPart (cs : List Char) : Option (Nat × List Char) :=
  match cs with
  | '.' :: cs =>
    let digits := cs.takeWhile fun c => (Text.digit? c).isSome
    if digits = [] then none
    else do
      let (n, _) ← readFixed 9 ((digits ++ List.replicate 9 '0').take 9)
      return (n, cs.drop digits.length)
  | cs => some (0, cs)

/-- Hours run up to 24, minutes and seconds up to 59. -/
def read? (cs : List Char) : Option (Time × List Char) := do
  let (hour, cs) ← readFixed 2 cs
  let (minute, cs) ← readFixed 2 (← readMark ':' cs)
  let (second, cs) ← readFixed 2 (← readMark ':' cs)
  let (nanosecond, cs) ← readPart cs
  if hour ≤ 24 ∧ minute ≤ 59 ∧ second ≤ 59 then return (⟨hour, minute, second, nanosecond⟩, cs)
  else none

end Time

def Offset.read? : List Char → Option (Offset × List Char)
  | [] => none
  | c :: cs =>
    if c = 'Z' ∨ c = 'z' then some (.universal, cs)
    else if c = '+' ∨ c = '-' then do
      let (hours, cs) ← readFixed 2 cs
      let (minutes, cs) ← readFixed 2 (← readMark ':' cs)
      return (.shifted (if c = '-' then -hours else hours) minutes, cs)
    else none

namespace Moment

/-- A time of day behind a date, after a blank or a letter T. -/
def readTime? : List Char → Option (Time × List Char)
  | [] => none
  | c :: cs => if c = ' ' ∨ c = 'T' ∨ c = 't' then Time.read? cs else none

/-- A moment at the front of a text and the rest. -/
def read? (cs : List Char) : Option (Moment × List Char) :=
  match Date.read? cs with
  | none => (Time.read? cs).map fun (t, cs) => (.time t, cs)
  | some (d, cs) =>
    match readTime? cs with
    | none => some (.date d, cs)
    | some (t, cs) =>
      match Offset.read? cs with
      | none => some (.dateTime d t none, cs)
      | some (offset, cs) => some (.dateTime d t (some offset), cs)

end Moment

/-- A number with zeros in front up to a width. -/
def padded (width n : Nat) : List Char :=
  let ds := Nat.toDigits 10 n
  List.replicate (width - ds.length) '0' ++ ds

def Date.text (d : Date) : List Char :=
  padded 4 d.year ++ '-' :: padded 2 d.month ++ '-' :: padded 2 d.day

/-- Zeros at the end of the fraction are left out. -/
def Time.text (t : Time) : List Char :=
  let part := ((padded 9 t.nanosecond).reverse.dropWhile (· = '0')).reverse
  padded 2 t.hour ++ ':' :: padded 2 t.minute ++ ':' :: padded 2 t.second ++
    (if part = [] then [] else '.' :: part)

def Offset.text : Offset → List Char
  | universal => ['Z']
  | shifted hours minutes =>
    (if hours < 0 then '-' else '+') :: padded 2 hours.natAbs ++ ':' :: padded 2 minutes

/-- A moment as it is written; the letter T stands between date and time. -/
def Moment.text : Moment → String
  | date d => String.ofList d.text
  | time t => String.ofList t.text
  | dateTime d t offset =>
    String.ofList (d.text ++ 'T' :: t.text ++ (offset.map Offset.text).getD [])

end VerifierBench.Toml
