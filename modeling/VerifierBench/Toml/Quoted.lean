import VerifierBench.Text.Numeral

/-! Quoted texts in TOML. Double quotes allow escapes, single quotes do not; three quotes enclose
texts that run over several lines. -/
namespace VerifierBench.Toml

def isBlank (c : Char) : Bool := c = ' ' || c = '\t'

def skipBlanks (cs : List Char) : List Char := cs.dropWhile isBlank

/-- A text with every line end as a single character. -/
def foldLineEnds : List Char → List Char
  | '\r' :: '\n' :: cs => '\n' :: foldLineEnds cs
  | c :: cs => c :: foldLineEnds cs
  | [] => []

/-- The characters below the blank, except the tabulator. -/
def isLow (c : Char) : Bool := c.toNat < 32 && c != '\t'

/-- Characters that no quoted text may hold, line ends apart. -/
def isControl (c : Char) : Bool := isLow c || c.toNat == 127

/-- The character with a number given in hexadecimal digits. -/
def codePoint (digits : Nat) (cs : List Char) : Option (Char × List Char) := do
  let values ← (cs.take digits).mapM Text.hexDigit?
  let n := values.foldl (fun n d => n * 16 + d) 0
  if values.length = digits ∧ n.isValidChar then some (Char.ofNat n, cs.drop digits) else none

/-- The character of an escape after its backslash. -/
def escaped : List Char → Option (Char × List Char)
  | 'b' :: rest => some (Char.ofNat 8, rest)
  | 't' :: rest => some ('\t', rest)
  | 'n' :: rest => some ('\n', rest)
  | 'f' :: rest => some (Char.ofNat 12, rest)
  | 'r' :: rest => some ('\r', rest)
  | '"' :: rest => some ('"', rest)
  | '\\' :: rest => some ('\\', rest)
  | 'u' :: rest => codePoint 4 rest
  | 'U' :: rest => codePoint 8 rest
  | _ => none

/-- The characters up to the closing quote on the same line. -/
def readOnLine (quote : Char) :
    (fuel : Nat) → List Char → List Char → Option (List Char × List Char)
  | 0, _, _ => none
  | fuel + 1, acc, cs =>
    match cs with
    | [] => none
    | c :: rest =>
      if c = quote then some (acc.reverse, rest)
      else if c = '\\' ∧ quote = '"' then do
        let (x, rest) ← escaped rest
        readOnLine quote fuel (x :: acc) rest
      else if isControl c then none
      else readOnLine quote fuel (c :: acc) rest

/-- What follows a backslash at the end of a line: the line end and all blanks and line ends after
it are left out. -/
def skipFold (cs : List Char) : Option (List Char) :=
  match skipBlanks cs with
  | '\n' :: rest => some (rest.dropWhile fun c => isBlank c || c = '\n')
  | _ => none

/-- What follows three closing quotes; up to two more quotes belong to the text before them. -/
def closeBlock (quote : Char) (acc rest : List Char) : List Char × List Char :=
  let extra := ((rest.take 2).takeWhile (· = quote))
  ((extra ++ acc).reverse, rest.drop extra.length)

/-- The characters up to three closing quotes. -/
def readBlock (quote : Char) :
    (fuel : Nat) → List Char → List Char → Option (List Char × List Char)
  | 0, _, _ => none
  | fuel + 1, acc, cs =>
    match cs with
    | [] => none
    | c :: rest =>
      if [quote, quote, quote].isPrefixOf cs then some (closeBlock quote acc (cs.drop 3))
      else if c = '\\' ∧ quote = '"' then
        match skipFold rest with
        | some rest => readBlock quote fuel acc rest
        | none => do
          let (x, rest) ← escaped rest
          readBlock quote fuel (x :: acc) rest
      else if isControl c ∧ c ≠ '\n' then none
      else readBlock quote fuel (c :: acc) rest

/-- A text on one line whose opening quote has been read. -/
def readShort (quote : Char) (cs : List Char) : Option (String × List Char) :=
  (readOnLine quote (cs.length + 1) [] cs).map fun (chars, rest) => (String.ofList chars, rest)

/-- Whether two more quotes open a text of several lines. -/
def opensBlock (quote : Char) (cs : List Char) : Bool := [quote, quote].isPrefixOf cs

/-- A text whose opening quote has been read. A line end right after three opening quotes is left
out. -/
def readQuoted (quote : Char) (cs : List Char) : Option (String × List Char) :=
  if opensBlock quote cs then
    let body := match cs.drop 2 with
      | '\n' :: rest => rest
      | rest => rest
    (readBlock quote (body.length + 1) [] body).map fun (chars, rest) =>
      (String.ofList chars, rest)
  else readShort quote cs

end VerifierBench.Toml
