import VerifierBench.Text.Blank
import VerifierBench.Text.Fields
import VerifierBench.Text.Numeral

/-! The six argument slots `a` to `f` and tables indexed by them. A sextuple is such a table of
32-bit words; reading a sextuple undoes writing it. -/
namespace VerifierBench

/-- An argument slot of the max/min program. -/
inductive Position
  | a | b | c | d | e | f
  deriving DecidableEq, Repr

namespace Position

def all : List Position := [a, b, c, d, e, f]

/-- The place of a position in the order `a` to `f`, from zero. -/
def index : Position → Nat
  | a => 0 | b => 1 | c => 2 | d => 3 | e => 4 | f => 5

def letter : Position → Char
  | a => 'a' | b => 'b' | c => 'c' | d => 'd' | e => 'e' | f => 'f'

def name (p : Position) : String := String.singleton p.letter

/-- Reads a letter in either case, with blanks around it. -/
def ofText? (text : List Char) : Option Position :=
  all.find? fun p => (Text.trim text).map Char.toLower = [p.letter]

theorem mem_all (p : Position) : p ∈ all := by cases p <;> decide

theorem index_lt (p : Position) : p.index < 6 := by cases p <;> decide

theorem index_inj {p q : Position} : p.index = q.index ↔ p = q := by
  cases p <;> cases q <;> decide

theorem letter_inj {p q : Position} : p.letter = q.letter ↔ p = q := by
  cases p <;> cases q <;> decide

end Position

/-- One value for each position. -/
structure Slots (α : Type) where
  a : α
  b : α
  c : α
  d : α
  e : α
  f : α
  deriving DecidableEq, Repr

namespace Slots
variable {α β : Type}

def get (s : Slots α) : Position → α
  | .a => s.a | .b => s.b | .c => s.c | .d => s.d | .e => s.e | .f => s.f

def set (s : Slots α) (p : Position) (x : α) : Slots α :=
  match p with
  | .a => { s with a := x } | .b => { s with b := x } | .c => { s with c := x }
  | .d => { s with d := x } | .e => { s with e := x } | .f => { s with f := x }

def ofFn (g : Position → α) : Slots α := ⟨g .a, g .b, g .c, g .d, g .e, g .f⟩

/-- The values in the order `a` to `f`. -/
def toList (s : Slots α) : List α := [s.a, s.b, s.c, s.d, s.e, s.f]

/-- The table of six values; any other number of values gives none. -/
def ofList? : List α → Option (Slots α)
  | [a, b, c, d, e, f] => some ⟨a, b, c, d, e, f⟩
  | _ => none

@[simp] theorem get_ofFn (g : Position → α) (p : Position) : (ofFn g).get p = g p := by
  cases p <;> rfl

@[simp] theorem get_set (s : Slots α) (p q : Position) (x : α) :
    (s.set p x).get q = if q = p then x else s.get q := by
  cases p <;> cases q <;> rfl

theorem ext_get {s t : Slots α} (h : ∀ p, s.get p = t.get p) : s = t := by
  cases s; cases t
  have ha := h .a; have hb := h .b; have hc := h .c
  have hd := h .d; have he := h .e; have hf := h .f
  simp_all [get]

theorem toList_eq_map (s : Slots α) : s.toList = Position.all.map s.get := rfl

@[simp] theorem ofList?_toList (s : Slots α) : ofList? s.toList = some s := rfl

theorem toList_of_ofList? {xs : List α} {s : Slots α} (h : ofList? xs = some s) :
    s.toList = xs := by
  unfold ofList? at h
  split at h
  · cases h; rfl
  · cases h

theorem mem_toList {s : Slots α} {x : α} : x ∈ s.toList ↔ ∃ p, s.get p = x := by
  rw [toList_eq_map, List.mem_map]
  exact ⟨fun ⟨p, _, h⟩ => ⟨p, h⟩, fun ⟨p, h⟩ => ⟨p, p.mem_all, h⟩⟩

end Slots

def wordText (x : Int32) : String := toString x.toInt

/-- Six words, one for each position. Ties, negative words and the ends of the range are allowed. -/
abbrev Sextuple := Slots Int32

namespace Sextuple

def text (s : Sextuple) : String := ",".intercalate (s.toList.map wordText)

/-- Reads six words separated by commas. Blanks around the whole and around each word are skipped,
and so are any opening brackets at the front and closing brackets at the end. -/
def ofText? (text : List Char) : Option Sextuple :=
  let inner := Text.dropEndWhile (· = ')') ((Text.trim text).dropWhile (· = '('))
  match (Text.fields ',' inner).mapM fun part => (Text.readInt32 (Text.trim part)).toOption with
  | none => none
  | some words => Slots.ofList? words

end Sextuple

end VerifierBench
