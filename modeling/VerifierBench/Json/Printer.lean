import VerifierBench.Json.Basic

/-! Writing JSON: on one line, or indented by two blanks a level. -/
namespace VerifierBench.Json

/-- The escape of a character inside a string. Only quotes, backslashes and control characters are
escaped. -/
def escape (c : Char) : List Char :=
  if c = '"' then ['\\', '"']
  else if c = '\\' then ['\\', '\\']
  else if c.toNat = 8 then ['\\', 'b']
  else if c.toNat = 9 then ['\\', 't']
  else if c.toNat = 10 then ['\\', 'n']
  else if c.toNat = 12 then ['\\', 'f']
  else if c.toNat = 13 then ['\\', 'r']
  else if c.toNat < 32 then
    ['\\', 'u', '0', '0', Nat.digitChar (c.toNat / 16), Nat.digitChar (c.toNat % 16)]
  else [c]

def quoted (s : String) : String := String.ofList ('"' :: s.toList.flatMap escape ++ ['"'])

def scalarText : Json → String
  | null => "null"
  | bool true => "true"
  | bool false => "false"
  | int n => toString n
  | real (.finite negative m e) =>
    let text := (Binary64.finite negative m e).text
    if text.toList.contains '.' then text else text ++ ".0"
  | real _ => "null"
  | str s => quoted s
  | arr _ => "[]"
  | obj _ => "\x7b\x7d"

mutual

/-- A value on one line, without blanks. -/
def compact : Json → String
  | arr (x :: xs) => "[" ++ x.compact ++ compactItems xs ++ "]"
  | obj ((k, v) :: rest) => "\x7b" ++ quoted k ++ ":" ++ v.compact ++ compactMembers rest ++ "\x7d"
  | j => j.scalarText

def compactItems : List Json → String
  | [] => ""
  | x :: xs => "," ++ x.compact ++ compactItems xs

def compactMembers : List (String × Json) → String
  | [] => ""
  | (k, v) :: rest => "," ++ quoted k ++ ":" ++ v.compact ++ compactMembers rest

end

/-- A new line, indented by two blanks a level. -/
def newLine (depth : Nat) : String := String.ofList ('\n' :: List.replicate (2 * depth) ' ')

mutual

/-- A value at some depth, each part on a line of its own. -/
def prettyAt (depth : Nat) : Json → String
  | arr (x :: xs) =>
    "[" ++ newLine (depth + 1) ++ x.prettyAt (depth + 1) ++ prettyItems (depth + 1) xs ++
      newLine depth ++ "]"
  | obj ((k, v) :: rest) =>
    "\x7b" ++ newLine (depth + 1) ++ quoted k ++ ": " ++ v.prettyAt (depth + 1) ++
      prettyMembers (depth + 1) rest ++ newLine depth ++ "\x7d"
  | j => j.scalarText

def prettyItems (depth : Nat) : List Json → String
  | [] => ""
  | x :: xs => "," ++ newLine depth ++ x.prettyAt depth ++ prettyItems depth xs

def prettyMembers (depth : Nat) : List (String × Json) → String
  | [] => ""
  | (k, v) :: rest =>
    "," ++ newLine depth ++ quoted k ++ ": " ++ v.prettyAt depth ++ prettyMembers depth rest

end

def pretty (j : Json) : String := j.prettyAt 0

end VerifierBench.Json
