import VerifierBench.Toml.Numeral
import VerifierBench.Toml.Quoted

/-! Reading TOML documents: comments, keys with values, and headers of tables. -/
namespace VerifierBench.Toml

/-- What follows blanks and a comment. A comment ends at the first control character, which has to
be a line end. -/
def skipComment (cs : List Char) : List Char :=
  match skipBlanks cs with
  | '#' :: rest => rest.dropWhile fun c => !isLow c
  | rest => rest

/-- The next line, if nothing but blanks and a comment is left on this one. -/
def endLine (cs : List Char) : Option (List Char) :=
  match skipComment cs with
  | [] => some []
  | '\n' :: rest => some rest
  | _ => none

/-- What follows blanks, line ends and comments. -/
def skipLines : (fuel : Nat) → List Char → List Char
  | 0, cs => cs
  | fuel + 1, cs =>
    match skipComment cs with
    | '\n' :: rest => skipLines fuel rest
    | rest => rest

/-- A quoted key, which has to end on its line. -/
def readQuotedKey (quote : Char) (cs : List Char) : Option (String × List Char) :=
  if opensBlock quote cs then none else readShort quote cs

def readKey (cs : List Char) : Option (String × List Char) :=
  match skipBlanks cs with
  | '"' :: rest => readQuotedKey '"' rest
  | '\'' :: rest => readQuotedKey '\'' rest
  | cs => (readWord cs).map fun (word, rest) => (String.ofList word, rest)

def readPath : (fuel : Nat) → List Char → Option (List String × List Char)
  | 0, _ => none
  | fuel + 1, cs => do
    let (key, rest) ← readKey cs
    match skipBlanks rest with
    | '.' :: rest =>
      let (keys, rest) ← readPath fuel rest
      return (key :: keys, rest)
    | rest => return ([key], rest)

/-- Whether a word can only be a number. -/
def isNumeric (word : List Char) : Bool :=
  (special? word).isSome || (word.head?.any fun c => c = '-' || isDigitOf 10 c)

def readScalar (cs : List Char) : Option (Value × List Char) :=
  match cs with
  | '+' :: rest => do
    let (word, rest) ← readWord rest
    readNumber word rest
  | cs =>
    match Moment.read? cs with
    | some (m, rest) => some (.moment m, rest)
    | none => do
      let (word, rest) ← readWord cs
      if word = "true".toList then some (.bool true, rest)
      else if word = "false".toList then some (.bool false, rest)
      else if isNumeric word then readNumber word rest
      else none

mutual

def readValue : (fuel : Nat) → List Char → Option (Value × List Char)
  | 0, _ => none
  | fuel + 1, cs =>
    match skipBlanks cs with
    | '"' :: rest => (readQuoted '"' rest).map fun (s, rest) => (.text s, rest)
    | '\'' :: rest => (readQuoted '\'' rest).map fun (s, rest) => (.text s, rest)
    | '[' :: rest => readItems fuel [] rest
    | '{' :: rest =>
      match skipBlanks rest with
      | '}' :: rest => some (.table .braces [], rest)
      | rest => readBraces fuel [] rest
    | cs => readScalar cs

/-- The items of a list up to its closing bracket; line ends and comments do not matter. -/
def readItems : (fuel : Nat) → List Value → List Char → Option (Value × List Char)
  | 0, _, _ => none
  | fuel + 1, acc, cs =>
    match skipLines (fuel + 1) cs with
    | ']' :: rest => some (.list acc.reverse, rest)
    | cs => do
      let (v, rest) ← readValue fuel cs
      match skipLines (fuel + 1) rest with
      | ',' :: rest => readItems fuel (v :: acc) rest
      | ']' :: rest => some (.list (v :: acc).reverse, rest)
      | _ => none

/-- The entries of a table on one line up to its closing brace. -/
def readBraces : (fuel : Nat) → Entries → List Char → Option (Value × List Char)
  | 0, _, _ => none
  | fuel + 1, t, cs => do
    let (path, rest) ← readPath fuel cs
    match rest with
    | '=' :: rest =>
      let (v, rest) ← readValue fuel rest
      let t ← t.define v path
      match skipBlanks rest with
      | ',' :: rest => readBraces fuel t rest
      | '}' :: rest => some (.table .braces t, rest)
      | _ => none
    | _ => none

end

/-- A header: it opens a table, or one more table of a list. -/
structure Header where
  path : List String
  isItem : Bool
  deriving DecidableEq, Repr

/-- What has been read: the finished part of the document, the header of the table that is open, and
its entries. The entries before the first header stand in the document itself. -/
structure Draft where
  finished : Entries
  header : Option Header
  own : Entries

namespace Draft

/-- The document with the open table put into it. -/
def close (d : Draft) : Option Entries :=
  match d.header with
  | none => some d.own
  | some h =>
    Entries.atHeader (if h.isItem then Entries.asItem d.own else Entries.asTable d.own) h.path
      d.finished

def openTable (d : Draft) (h : Header) : Option Draft :=
  d.close.map fun t => ⟨t, some h, []⟩

def define (d : Draft) (path : List String) (v : Value) : Option Draft :=
  (d.own.define v path).map fun t => { d with own := t }

end Draft

def readLines : (fuel : Nat) → Draft → List Char → Option Entries
  | 0, _, _ => none
  | fuel + 1, d, cs =>
    match skipLines (fuel + 1) cs with
    | [] => d.close
    | '[' :: '[' :: rest => do
      let (path, rest) ← readPath fuel rest
      match rest with
      | ']' :: ']' :: rest => readLines fuel (← d.openTable ⟨path, true⟩) (← endLine rest)
      | _ => none
    | '[' :: rest => do
      let (path, rest) ← readPath fuel rest
      match rest with
      | ']' :: rest => readLines fuel (← d.openTable ⟨path, false⟩) (← endLine rest)
      | _ => none
    | cs => do
      let (path, rest) ← readPath fuel cs
      match rest with
      | '=' :: rest =>
        let (v, rest) ← readValue fuel rest
        readLines fuel (← d.define path v) (← endLine rest)
      | _ => none

/-- A text without the byte order mark at its front. -/
def skipByteOrderMark : List Char → List Char
  | '\ufeff' :: rest => rest
  | cs => cs

def read (text : String) : Option Entries :=
  let cs := foldLineEnds (skipByteOrderMark text.toList)
  readLines (cs.length + 2) ⟨[], none, []⟩ cs

end VerifierBench.Toml
