import VerifierBench.Tree.Reader

/-! Reading what is typed on a command line: words, lists of words, sextuples and faults. -/
namespace VerifierBench.CommandLine

/-- A numeral with blanks around it. -/
def readNumeral {α : Type} (read : List Char → Except Text.NumeralError α) (text : List Char) :
    Except Error α :=
  (read (Text.trim text)).mapError .numeral

def readWord (text : String) : Except Error Int32 := readNumeral Text.readInt32 text.toList

/-- A sextuple as one text or as six words. -/
def readInputs : List String → Except Error Sextuple
  | [single] => Sextuple.read single
  | [a, b, c, d, e, f] => do
    let a ← readWord a
    let b ← readWord b
    let c ← readWord c
    let d ← readWord d
    let e ← readWord e
    let f ← readWord f
    return ⟨a, b, c, d, e, f⟩
  | texts => .error (.invalidSextuple (" ".intercalate texts))

/-- Words separated by commas. Fields that are blank do not count. -/
def readWords (text : String) : Except Error (List Int32) :=
  (((Text.fields ',' text.toList).map Text.trim).filter (· ≠ [])).mapM (readNumeral Text.readInt32)

def readFault : Option String → Except Error (Option Fault)
  | none => .ok none
  | some text => (Fault.read text).map some

/-- A numeral, or a default if none is given. -/
def readOr {α : Type} (read : List Char → Except Text.NumeralError α) (default : α) :
    Option String → Except Error α
  | none => .ok default
  | some text => readNumeral read text.toList

end VerifierBench.CommandLine
