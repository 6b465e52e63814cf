import VerifierBench.Error
import VerifierBench.Source.WordStream

/-! Nondeterministic sources: anything that gives one word after another. The built-in sources cycle
through a list, draw random words, or mix two other sources. -/
namespace VerifierBench

/-- How a state gives a word and goes on. Only an empty range of random words makes it fail. -/
structure Nondet (σ : Type) where
  draw : σ → Except Error (Int32 × σ)

namespace Nondet
variable {σ : Type}

/-- An infinite stream of words; the state is the number of words drawn. -/
def ofStream (words : Nat → Int32) : Nondet Nat := ⟨fun n => .ok (words n, n + 1)⟩

/-- Draws the six words of a sextuple in the order `a` to `f`. -/
def drawSextuple (n : Nondet σ) (s : σ) : Except Error (Sextuple × σ) := do
  let (a, s) ← n.draw s
  let (b, s) ← n.draw s
  let (c, s) ← n.draw s
  let (d, s) ← n.draw s
  let (e, s) ← n.draw s
  let (f, s) ← n.draw s
  return (⟨a, b, c, d, e, f⟩, s)

def drawMany (n : Nondet σ) : Nat → σ → Except Error (List Int32 × σ)
  | 0, s => .ok ([], s)
  | k + 1, s => do
    let (x, s) ← n.draw s
    let (xs, s) ← drawMany n k s
    return (x :: xs, s)

end Nondet

/-- Words from a closed range, one for each accepted random word. -/
structure WordRange where
  low : Int32
  high : Int32
  deriving DecidableEq, Repr

namespace WordRange

/-- The number of words in a range that is not empty. -/
def size (r : WordRange) : Nat := (r.high.toInt - r.low.toInt + 1).toNat

/-- The largest low half of a product that keeps all results equally likely: the size shifted left
until its top bit is set, less one. -/
def zone (r : WordRange) : Nat := (r.size <<< (31 - Nat.log2 r.size)) - 1

/-- Draws words until one is accepted. The high half of the product of the word and the size is the
offset from the low end. At least half of all words are accepted, so `attempts` words are enough in
practice. -/
def draw (r : WordRange) : (attempts : Nat) → WordStream → Except Error (Int32 × WordStream)
  | 0, _ => .error (.rejectedDraws r.low r.high)
  | attempts + 1, s =>
    let (w, s) := s.next
    let product := w.toNat * r.size
    if product % UInt32.size ≤ r.zone then .ok (r.low + Int32.ofNat (product / UInt32.size), s)
    else r.draw attempts s

end WordRange

/-- A built-in source with its state. -/
inductive Source
  | cycle (values rest : List Int32)
  | random (words : WordStream) (range : Option WordRange)
  | interleave (primary secondary : Source) (period drawn : Nat)
  deriving DecidableEq

namespace Source

/-- Replays a list, starting over when it is used up; an empty list gives zeros. -/
def fixed (values : List Int32) : Source := .cycle values values

/-- The words most likely to show mistakes in comparisons. -/
def boundaryValues : List Int32 :=
  [0, 1, -1, Int32.minValue, Int32.maxValue, Int32.minValue + 1, Int32.maxValue - 1, 2, -2]

def boundary : Source := fixed boundaryValues

/-- Uniformly random words, of the whole range or of a part of it. -/
def seeded (seed : UInt64) (range : Option WordRange) : Source := .random (.seeded seed) range

/-- Draws from the first source, but every `period`-th word from the second. A period of zero counts
as one. -/
def mix (primary secondary : Source) (period : Nat) : Source :=
  .interleave primary secondary (max period 1) 0

/-- Enough attempts at a random word of a range: all are rejected with probability below
`2 ^ -4096`. -/
def attempts : Nat := 4096

/-- The next word of a source. -/
def draw : Source → Except Error (Int32 × Source)
  | cycle values (x :: rest) => .ok (x, cycle values rest)
  | cycle [] [] => .ok (0, cycle [] [])
  | cycle (x :: values) [] => .ok (x, cycle (x :: values) values)
  | random words none =>
    let (w, words) := words.next
    .ok (w.toInt32, random words none)
  | random words (some r) =>
    if r.high < r.low then .error (.emptyRange r.low r.high)
    else if r.size = UInt32.size then
      let (w, words) := words.next
      .ok (w.toInt32, random words (some r))
    else do
      let (x, words) ← r.draw attempts words
      return (x, random words (some r))
  | interleave primary secondary period drawn =>
    if (drawn + 1) % period = 0 then do
      let (x, secondary) ← secondary.draw
      return (x, interleave primary secondary period (drawn + 1))
    else do
      let (x, primary) ← primary.draw
      return (x, interleave primary secondary period (drawn + 1))

def nondet : Nondet Source := ⟨draw⟩

end Source
end VerifierBench
