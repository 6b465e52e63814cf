import VerifierBench.Tree.Decision

/-! The decision tree as a program of nested `if`/`else` blocks that assign positions to `max` and
`min`. Rendering is on programs, so that the text and the tree meet in one syntax. -/
namespace VerifierBench

inductive Program
  | done
  | assign (target : Extremum) (p : Position) (next : Program)
  | branch (e : Extremum) (guard : List Comparison) (yes no next : Program)
  deriving DecidableEq, Repr

namespace Program

/-- The positions assigned last to `max` and to `min` when the program runs on six words. -/
def run (v : Sextuple) :
    Program → Option Position × Option Position → Option Position × Option Position
  | done, s => s
  | assign .max p next, (_, min) => next.run v (some p, min)
  | assign .min p next, (max, _) => next.run v (max, some p)
  | branch e guard yes no next, s =>
    if guard.all fun c => c.holds e v then next.run v (yes.run v s) else next.run v (no.run v s)

def indent (depth : Nat) : String := String.ofList (List.replicate (4 * depth) ' ')

def guardText (e : Extremum) (guard : List Comparison) : String :=
  " && ".intercalate (guard.map fun c => "(" ++ c.text e ++ ")")

/-- The text of a program at some depth, one statement or brace a line. -/
def render (depth : Nat) : Program → String
  | done => ""
  | assign e p next => indent depth ++ e.name ++ " = " ++ p.name ++ ";\n" ++ next.render depth
  | branch e guard yes no next =>
    indent depth ++ "if (" ++ guardText e guard ++ ") \x7b\n" ++ yes.render (depth + 1) ++
      indent depth ++ "\x7d else \x7b\n" ++ no.render (depth + 1) ++
      indent depth ++ "\x7d\n" ++ next.render depth

end Program

/-- The chain of branches; `leaf` says what is done with the position picked. -/
def Cascade.program (c : Cascade) (leaf : Position → Program) : Program :=
  c.branches.foldr (fun b rest => .branch c.extremum b.guard (leaf b.candidate) rest .done)
    (leaf c.fallback)

namespace DecisionTree

/-- Both decisions, nested. -/
def program (t : DecisionTree) : Program :=
  t.max.program fun max =>
    .assign .max max ((t.min.get max).program fun min => .assign .min min .done)

def text (t : DecisionTree) : String := t.program.render 0

end DecisionTree
end VerifierBench
