import VerifierBench.Number.Binary64
import VerifierBench.Toml.Moment

/-! TOML values and the entries of tables. How a table came about decides what may be added to it:
every key is defined once, and so is every table with a header of its own. -/
namespace VerifierBench.Toml

/-- How a table came about: in braces, by keys with points, by headers of inner tables only, or by
its own header. -/
inductive Origin
  | braces
  | dotted
  | implied
  | header
  deriving DecidableEq, Repr

/-- Lists of tables that are written under headers have the latest table first. -/
inductive Value
  | bool (b : Bool)
  | int (n : Int)
  | real (x : Binary64)
  | text (s : String)
  | moment (m : Moment)
  | list (items : List Value)
  | table (origin : Origin) (entries : List (String × Value))
  | tables (latestFirst : List (List (String × Value)))

abbrev Entries := List (String × Value)

namespace Entries

def value? (t : Entries) (key : String) : Option Value :=
  (t.find? fun entry => entry.1 = key).map Prod.snd

/-- Gives a key its value, in the place where it stands or else at the end. -/
def put (t : Entries) (key : String) (v : Value) : Entries :=
  match t with
  | [] => [(key, v)]
  | entry :: rest =>
    if entry.1 = key then (key, v) :: rest else entry :: Entries.put rest key v

/-- Defines a key, or a key with points. Only tables that came about by such keys are extended. -/
def define (v : Value) : List String → Entries → Option Entries
  | [], _ => none
  | [key], t => if (t.value? key).isSome then none else some (t.put key v)
  | key :: path, t =>
    match t.value? key with
    | none => (define v path []).map fun inner => t.put key (.table .dotted inner)
    | some (.table .dotted inner) =>
      (define v path inner).map fun inner => t.put key (.table .dotted inner)
    | some _ => none

/-- The entries of both tables, if no key is in both. -/
def join (t own : Entries) : Option Entries :=
  if own.any fun entry => (t.value? entry.1).isSome then none else some (t ++ own)

/-- The value under a header, made from the value that is there. -/
def atHeader (make : Option Value → Option Value) : List String → Entries → Option Entries
  | [], _ => none
  | [key], t => (make (t.value? key)).map (t.put key)
  | key :: path, t =>
    match t.value? key with
    | none => (atHeader make path []).map fun inner => t.put key (.table .implied inner)
    | some (.table .implied inner) =>
      (atHeader make path inner).map fun inner => t.put key (.table .implied inner)
    | some (.table .header inner) =>
      (atHeader make path inner).map fun inner => t.put key (.table .header inner)
    | some (.tables (latest :: earlier)) =>
      (atHeader make path latest).map fun inner => t.put key (.tables (inner :: earlier))
    | some _ => none

/-- A table under its own header; inner tables may have come before it. -/
def asTable (own : Entries) : Option Value → Option Value
  | none => some (.table .header own)
  | some (.table .implied inner) => (join inner own).map (.table .header)
  | some _ => none

/-- One more table of a list of tables. -/
def asItem (own : Entries) : Option Value → Option Value
  | none => some (.tables [own])
  | some (.tables earlier) => some (.tables (own :: earlier))
  | some _ => none

end Entries
end VerifierBench.Toml
