import VerifierBench.Position

/-! Grids: all sextuples over a closed range of words, in lexicographic order. The sextuple at some
place is the numeral of that place in the base of the range's width. -/
namespace VerifierBench

/-- The sextuples over `low` to `high` from the place `index` on. -/
structure Grid where
  low : Int32
  high : Int32
  index : Nat
  deriving DecidableEq, Repr

namespace Grid

/-- All sextuples over a range. -/
def between (low high : Int32) : Grid := ⟨low, high, 0⟩

def width (g : Grid) : Nat := (g.high.toInt - g.low.toInt + 1).toNat

def size (g : Grid) : Nat := Nat.pow g.width 6

def remaining (g : Grid) : Nat := g.size - g.index

/-- The number of sextuples if it is a 64-bit number. -/
def checkedSize (g : Grid) : Option UInt64 :=
  if g.size < UInt64.size then some (UInt64.ofNat g.size) else none

/-- The number of sextuples, at most the largest 64-bit number. -/
def saturatedSize (g : Grid) : UInt64 :=
  g.checkedSize.getD (UInt64.ofNat (UInt64.size - 1))

def isEmpty (g : Grid) : Bool := g.width == 0

/-- The word at some place of the range. -/
def word (g : Grid) (place : Nat) : Int32 := Int32.ofInt (g.low.toInt + place)

/-- The digit of a numeral that so many digits follow. -/
def digit (g : Grid) (k following : Nat) : Nat := k / Nat.pow g.width following % g.width

/-- The sextuple at some place; the last position varies fastest. -/
def item (g : Grid) (k : Nat) : Sextuple :=
  .ofFn fun p => g.word (g.digit k (5 - p.index))

/-- The next sextuple, until all have been given out. -/
def next? (g : Grid) : Option (Sextuple × Grid) :=
  if g.index < g.size then some (g.item g.index, { g with index := g.index + 1 }) else none

/-- Leaves out the next `n` sextuples. -/
def skip (n : Nat) (g : Grid) : Grid := { g with index := min (g.index + n) (max g.index g.size) }

end Grid

/-- A finite supply of sextuples that are made when they are asked for. -/
inductive Supply
  | done
  | more (head : Sextuple) (rest : Unit → Supply)

namespace Supply

def ofList : List Sextuple → Supply
  | [] => .done
  | v :: vs => .more v fun _ => ofList vs

/-- The next `n` sextuples of a grid. -/
def ofGridFor : Nat → Grid → Supply
  | 0, _ => .done
  | n + 1, g =>
    match g.next? with
    | none => .done
    | some (v, g) => .more v fun _ => ofGridFor n g

/-- All remaining sextuples of a grid. -/
def ofGrid (g : Grid) : Supply := ofGridFor g.remaining g

def toList : Supply → List Sextuple
  | done => []
  | more v rest => v :: (rest ()).toList

@[simp] theorem toList_ofList (vs : List Sextuple) : (ofList vs).toList = vs := by
  induction vs with
  | nil => rfl
  | cons v vs ih => simp [ofList, toList, ih]

end Supply
end VerifierBench
