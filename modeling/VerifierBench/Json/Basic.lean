import VerifierBench.Number.Binary64
import VerifierBench.Number.Range

/-! JSON values. Integers of the 64-bit signed and unsigned ranges are kept apart from all other
numbers, which are doubles. -/
namespace VerifierBench

inductive Json
  | null
  | bool (b : Bool)
  | int (n : Int)
  | real (x : Binary64)
  | str (s : String)
  | arr (items : List Json)
  | obj (members : List (String × Json))

namespace Json

/-- Numbers that are integers for every reader. -/
def isInteger (n : Int) : Bool := isInt64 n || isUInt64 n

def ofInt32 (x : Int32) : Json := int x.toInt

def ofNat (n : Nat) : Json := int n

def ofUInt64 (n : UInt64) : Json := int n.toNat

def ofOption {α : Type} (f : α → Json) : Option α → Json
  | some a => f a
  | none => null

def ofList {α : Type} (f : α → Json) (xs : List α) : Json := arr (xs.map f)

def ofStrings (xs : List String) : Json := ofList str xs

def member? (members : List (String × Json)) (name : String) : Option Json :=
  (members.find? fun entry => entry.1 = name).map Prod.snd

/-- Adds a member; a member of that name loses its value. -/
def putMember (members : List (String × Json)) (name : String) (value : Json) :
    List (String × Json) :=
  match members with
  | [] => [(name, value)]
  | (k, v) :: rest => if k = name then (k, value) :: rest else (k, v) :: putMember rest name value

end Json
end VerifierBench
