import VerifierBench.CommandLine.Grammar

/-! The commands of the program with their arguments, before these are interpreted. -/
namespace VerifierBench.CommandLine

def programName : String := "bench-driver"

inductive Action
  | maxMin
  | sweep
  | random
  | loops
  | tree
  deriving DecidableEq, Repr

namespace Action

def all : List Action := [maxMin, sweep, random, loops, tree]

def name : Action → String
  | maxMin => "maxmin"
  | sweep => "sweep"
  | random => "random"
  | loops => "loops"
  | tree => "tree"

def ofName? (name : String) : Option Action := all.find? fun a => a.name = name

end Action

/-- The switches before or after the name of an action. -/
def commonSwitches : List Switch := [⟨"json", none⟩, ⟨"quiet", some 'q'⟩]

def commonGrammar : Grammar := ⟨programName, [], commonSwitches, .none⟩

def faultOption : ValueOption := ⟨"fault", false, false⟩

def failFast : Switch := ⟨"fail-fast", none⟩

/-- The grammar of what comes after the name of an action. Negative numbers may be the values of the
options for ends of ranges and for inputs. -/
def Action.grammar (a : Action) : Grammar :=
  let program := programName ++ "-" ++ a.name
  match a with
  | maxMin => ⟨program, [faultOption], commonSwitches, .several⟩
  | sweep =>
    ⟨program, [⟨"min", true, false⟩, ⟨"max", true, false⟩, faultOption],
      failFast :: commonSwitches, .none⟩
  | random =>
    ⟨program, [⟨"cases", false, false⟩, ⟨"seed", false, false⟩, faultOption],
      failFast :: commonSwitches, .none⟩
  | loops => ⟨program, [⟨"inputs", true, true⟩], commonSwitches, .optional⟩
  | tree => ⟨program, [faultOption], commonSwitches, .none⟩

/-- An action with its arguments as they were typed. -/
inductive Command
  | maxMin (inputs : List String) (fault : Option String)
  | sweep (min max fault : Option String) (failFast : Bool)
  | random (cases seed fault : Option String) (failFast : Bool)
  | loops (fixture inputs : Option String)
  | tree (fault : Option String)
  deriving DecidableEq, Repr

def Action.command (a : Action) (items : List Item) : Command :=
  let value := Item.value? items
  match a with
  | maxMin => .maxMin (Item.positionals items) (value "fault")
  | sweep => .sweep (value "min") (value "max") (value "fault") (Item.isNamed items failFast.name)
  | random =>
    .random (value "cases") (value "seed") (value "fault") (Item.isNamed items failFast.name)
  | loops => .loops (Item.positionals items).head? (value "inputs")
  | tree => .tree (value "fault")

/-- A command with the ways in which its response is shown. -/
structure Invocation where
  command : Command
  json : Bool
  quiet : Bool
  deriving DecidableEq, Repr

/-- The help for an action, or for the program if none is named. -/
def helpOn : List String → Stop
  | [] => .help
  | [name] => if name = "help" ∨ (Action.ofName? name).isSome then .help else .misuse
  | _ => .misuse

/-- The switches before the name of an action, the action, and the arguments after it. -/
def splitAction : List String → Except Stop (List Item × Action × List String)
  | [] => .error .misuse
  | argument :: rest =>
    match Token.ofArgument argument with
    | .terminator => .error .misuse
    | .plain =>
      match Action.ofName? argument with
      | some a => .ok ([], a, rest)
      | none => if argument = "help" then .error (helpOn rest) else .error .misuse
    | .letters cs => do
      let switches ← cs.mapM commonGrammar.switchLettered
      let (items, a, rest) ← splitAction rest
      return (switches ++ items, a, rest)
    | .long name _ => do
      let s ← commonGrammar.switchNamed name
      let (items, a, rest) ← splitAction rest
      return (s :: items, a, rest)

/-- Reads all arguments. A common switch may be given once before the action and once after it. -/
def Invocation.read (arguments : List String) : Except Stop Invocation := do
  let (before, a, rest) ← splitAction arguments
  let items ← a.grammar.read rest
  if commonGrammar.isComplete before then
    let isOn name := Item.isNamed before name || Item.isNamed items name
    return ⟨a.command items, isOn "json", isOn "quiet"⟩
  else throw .misuse

end VerifierBench.CommandLine
