/-! Argument grammars. A command takes options with values, switches without, and positional
arguments. Arguments are read from the left, and the first one that does not fit ends the reading;
what has to be there is checked at the end. -/
namespace VerifierBench.CommandLine

/-- Why arguments are not a command. -/
inductive Stop
  | misuse
  | version (program : String)
  | help
  deriving DecidableEq, Repr

inductive Token
  | terminator
  | long (name : String) (value : Option String)
  | letters (cs : List Char)
  | plain
  deriving DecidableEq, Repr

/-- After any number of dashes but one stands a name, up to the first equals sign; the value begins
after all equals signs there. A single dash is an argument like any other text. -/
def Token.ofArgument (argument : String) : Token :=
  match argument.toList with
  | ['-', '-'] => .terminator
  | '-' :: '-' :: rest =>
    let name := rest.dropWhile (· = '-')
    match name.span (· ≠ '=') with
    | (name, []) => .long (String.ofList name) none
    | (name, value) =>
      .long (String.ofList name) (some (String.ofList (value.dropWhile (· = '='))))
  | ['-'] => .plain
  | '-' :: cs => .letters cs
  | _ => .plain

/-- An option that takes one value. The value may be the next argument, unless that begins with a
dash and the option has not been declared to allow it. -/
structure ValueOption where
  name : String
  allowsDash : Bool
  needsPositional : Bool
  deriving DecidableEq, Repr

def ValueOption.takes (o : ValueOption) (argument : String) : Bool :=
  o.allowsDash || Token.ofArgument argument = .plain

structure Switch where
  name : String
  letter : Option Char
  deriving DecidableEq, Repr

inductive Positionals
  | none
  | optional
  | several
  deriving DecidableEq, Repr

namespace Positionals

def required : Positionals → Bool
  | several => true
  | _ => false

def allows : Positionals → Nat → Bool
  | none, n => n == 0
  | optional, n => decide (n ≤ 1)
  | several, _ => true

end Positionals

structure Grammar where
  program : String
  options : List ValueOption
  switches : List Switch
  positionals : Positionals
  deriving DecidableEq, Repr

/-- What arguments say: that a switch or an option is there, what the value of an option is, and
what the positional arguments are. -/
inductive Item
  | named (name : String)
  | value (name text : String)
  | positional (text : String)
  deriving DecidableEq, Repr

namespace Item

def isNamed (items : List Item) (name : String) : Bool := items.contains (named name)

def value? (items : List Item) (name : String) : Option String :=
  items.findSome? fun
    | value n text => if n = name then some text else none
    | _ => none

def positionals (items : List Item) : List String :=
  items.filterMap fun
    | positional text => some text
    | _ => none

/-- The names of all switches and options, as often as they are there. -/
def names (items : List Item) : List String :=
  items.filterMap fun
    | named name => some name
    | _ => none

end Item

namespace Grammar

/-- The switch of a name. Two names stand for the version and for help. -/
def switchNamed (g : Grammar) (name : String) : Except Stop Item :=
  if g.switches.any fun s => s.name = name then .ok (.named name)
  else if name = "version" then .error (.version g.program)
  else if name = "help" then .error .help
  else .error .misuse

def switchLettered (g : Grammar) (c : Char) : Except Stop Item :=
  match g.switches.find? fun s => s.letter = some c with
  | some s => .ok (.named s.name)
  | none =>
    if c = 'V' then .error (.version g.program)
    else if c = 'h' then .error .help
    else .error .misuse

/-- Reads arguments after a number of positional ones and perhaps after an option that waits for its
value. -/
def scan (g : Grammar) (taken : Nat) (waiting : Option ValueOption) :
    List String → Except Stop (List Item)
  | [] => .ok []
  | argument :: rest =>
    match waiting.filter fun o => o.takes argument with
    | some o => do return .value o.name argument :: (← g.scan taken none rest)
    | none =>
      match Token.ofArgument argument with
      | .terminator =>
        if g.positionals.allows (taken + rest.length) then .ok (rest.map .positional)
        else .error .misuse
      | .plain =>
        if g.positionals.allows (taken + 1) then do
          return .positional argument :: (← g.scan (taken + 1) none rest)
        else .error .misuse
      | .letters cs => do
        let switches ← cs.mapM g.switchLettered
        return switches ++ (← g.scan taken none rest)
      | .long name value =>
        match g.options.find? fun o => o.name = name with
        | none => do
          let s ← g.switchNamed name
          return s :: (← g.scan taken none rest)
        | some o =>
          match value with
          | some text => do
            return .named name :: .value name text :: (← g.scan taken none rest)
          | none => do return .named name :: (← g.scan taken (some o) rest)

/-- Nothing is given twice or without its value, and nothing is missing. -/
def isComplete (g : Grammar) (items : List Item) : Bool :=
  decide (Item.names items).Nodup &&
    (g.options.all fun o =>
      !Item.isNamed items o.name ||
        ((Item.value? items o.name).isSome &&
          (!o.needsPositional || !(Item.positionals items).isEmpty))) &&
    (!g.positionals.required || !(Item.positionals items).isEmpty)

/-- The items of arguments that fit the grammar. -/
def read (g : Grammar) (arguments : List String) : Except Stop (List Item) := do
  let items ← g.scan 0 none arguments
  if g.isComplete items then return items else throw .misuse

end Grammar
end VerifierBench.CommandLine
