import VerifierBench.Json.Basic

/-! Reading values out of JSON. Nothing is converted: integers must be integers in range, and
booleans and strings are themselves. Records ignore members they do not know. -/
namespace VerifierBench.Json
variable {α : Type}

def int32? : Json → Option Int32
  | int n => if isInt32 n then some (Int32.ofInt n) else none
  | _ => none

def uint64? : Json → Option UInt64
  | int n => if isUInt64 n then some (UInt64.ofNat n.toNat) else none
  | _ => none

def bool? : Json → Option Bool
  | bool b => some b
  | _ => none

def string? : Json → Option String
  | str s => some s
  | _ => none

def list? (f : Json → Option α) : Json → Option (List α)
  | arr items => items.mapM f
  | _ => none

def nullable? (f : Json → Option α) : Json → Option (Option α)
  | null => some none
  | j => (f j).map some

/-- The fields of an object, by name. -/
def members? (names : List String) : Json → Option (List (Option Json))
  | obj members => some (names.map (member? members))
  | _ => none

/-- The fields of a record: of an object by name, or of an array in order if it has exactly one
item for each. -/
def record? (names : List String) : Json → Option (List (Option Json))
  | arr items => if items.length = names.length then some (items.map some) else none
  | j => members? names j

def required? (f : Json → Option α) : Option Json → Option α
  | some j => f j
  | none => none

/-- A field that may be absent or null. -/
def optional? (f : Json → Option α) : Option Json → Option (Option α)
  | some j => nullable? f j
  | none => some none

/-- The name of a variant with its payload: a string alone, or an object with one member. -/
def variant? : Json → Option (String × Option Json)
  | str name => some (name, none)
  | obj [(name, payload)] => some (name, some payload)
  | _ => none

/-- A variant without payload, which may be written with a null one. -/
def isUnit : Option Json → Bool
  | none => true
  | some null => true
  | some _ => false

/-- The value of a variant that has no payload. -/
def unit? (value : α) (payload : Option Json) : Option α :=
  if isUnit payload then some value else none

end VerifierBench.Json
