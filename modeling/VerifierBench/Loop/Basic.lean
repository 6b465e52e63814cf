import VerifierBench.Position

/-! Loops that add a constant to a counter: a fixed number of times, or while a guard holds. -/
namespace VerifierBench

/-- Adds `delta` to a counter `count` times. -/
structure Step where
  count : UInt64
  delta : Int32
  deriving DecidableEq, Repr

inductive Guard
  | below (bound : Int32)
  | above (bound : Int32)
  deriving DecidableEq, Repr

def Guard.holds : Guard → Int32 → Bool
  | below b, x => decide (x < b)
  | above b, x => decide (b < x)

/-- `while (guard) { x += delta; if (x == breakAt) break; }` -/
structure GuardedLoop where
  guard : Guard
  delta : Int32
  breakAt : Option Int32
  deriving DecidableEq, Repr

namespace GuardedLoop

def whileBelow (bound delta : Int32) : GuardedLoop := ⟨.below bound, delta, none⟩

def whileAbove (bound delta : Int32) : GuardedLoop := ⟨.above bound, delta, none⟩

def text (l : GuardedLoop) : String :=
  let condition := match l.guard with
    | .below b => "x < " ++ wordText b
    | .above b => wordText b ++ " < x"
  let exit := match l.breakAt with
    | some e => "; break at " ++ wordText e
    | none => ""
  "while (" ++ condition ++ ") x += " ++ wordText l.delta ++ exit

end GuardedLoop
end VerifierBench
