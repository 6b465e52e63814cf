import VerifierBench.Tree.Cascade

/-! The decision tree for the maximum and the minimum of six words. It first decides which position
holds the maximum, then which of the other five holds the minimum. -/
namespace VerifierBench

structure Extrema where
  max : Int32
  min : Int32
  deriving DecidableEq, Repr

def Extrema.text (r : Extrema) : String :=
  "max=" ++ wordText r.max ++ ", min=" ++ wordText r.min

/-- The positions taken as maximum and as minimum. -/
structure Leaf where
  max : Position
  min : Position
  deriving DecidableEq, Repr

namespace Leaf

def text (l : Leaf) : String := "max=" ++ l.max.name ++ "/min=" ++ l.min.name

/-- The place of a leaf in the order by maximum and then by minimum. -/
def rank (l : Leaf) : Nat := 6 * l.max.index + l.min.index

theorem rank_inj {k l : Leaf} : k.rank = l.rank ↔ k = l := by
  cases k with | mk kM km => cases l with | mk lM lm =>
  have h₁ := km.index_lt
  have h₂ := lm.index_lt
  simp only [rank, mk.injEq, ← Position.index_inj]
  omega

end Leaf

/-- An answer together with the leaf that gave it. -/
structure Selection where
  result : Extrema
  leaf : Leaf
  deriving DecidableEq, Repr

/-- A fault site is the guard of a candidate, either for the maximum or for the minimum after some
maximum was chosen. -/
inductive FaultSite
  | maxGuard (candidate : Position)
  | minGuard (max candidate : Position)
  deriving DecidableEq, Repr

namespace FaultSite

def candidate : FaultSite → Position
  | maxGuard p => p
  | minGuard _ p => p

def extremum : FaultSite → Extremum
  | maxGuard _ => .max
  | minGuard .. => .min

def text : FaultSite → String
  | maxGuard p => "max guard of " ++ p.name
  | minGuard m p => "min guard of " ++ p.name ++ " (max=" ++ m.name ++ ")"

end FaultSite

/-- One conjunct of one guard, counted from zero, reads differently. -/
structure Fault where
  site : FaultSite
  conjunct : UInt64
  replacement : Comparison
  deriving DecidableEq, Repr

namespace Fault

def text (f : Fault) : String :=
  "conjunct " ++ toString f.conjunct.toNat ++ " of the " ++ f.site.text ++ " replaced by (" ++
    f.replacement.text f.site.extremum ++ ")"

/-- The published fault: the third conjunct of the guard of `a` reads `b>d`. -/
def ko2 : Fault := ⟨.maxGuard .a, 2, ⟨.b, .d⟩⟩

end Fault

/-- A cascade for the maximum and, for each maximum, one for the minimum. The last fault that was
put in is remembered. -/
structure DecisionTree where
  max : Cascade
  min : Slots Cascade
  fault : Option Fault
  deriving DecidableEq, Repr

namespace DecisionTree

/-- The cascade over positions in order; the last one is the fallback. -/
def deriveOver (e : Extremum) (ps : List Position) : Cascade :=
  .derive e ps.dropLast (ps.getLastD .f)

/-- The correct tree: both decisions prefer the order `a` to `f`. -/
def derived : DecisionTree where
  max := deriveOver .max Position.all
  min := .ofFn fun chosen => deriveOver .min (Position.all.filter fun p => p ≠ chosen)
  fault := none

def select (t : DecisionTree) (v : Sextuple) : Selection :=
  let max := t.max.resolve v
  let min := (t.min.get max).resolve v
  ⟨⟨v.get max, v.get min⟩, ⟨max, min⟩⟩

/-- All leaves in the order of the branches. -/
def leaves (t : DecisionTree) : List Leaf :=
  t.max.outcomes.flatMap fun max => (t.min.get max).outcomes.map fun min => ⟨max, min⟩

/-- The cascade that a fault site belongs to. -/
def cascadeAt (t : DecisionTree) : FaultSite → Cascade
  | .maxGuard _ => t.max
  | .minGuard m _ => t.min.get m

/-- Exchanges the cascade that a fault site belongs to. -/
def setCascadeAt (t : DecisionTree) (c : Cascade) : FaultSite → DecisionTree
  | .maxGuard _ => { t with max := c }
  | .minGuard m _ => { t with min := t.min.set m c }

theorem length_leaves_derived : derived.leaves.length = 30 := by decide

end DecisionTree

/-- The maximum and the minimum of six words. -/
def Sextuple.extrema (v : Sextuple) : Extrema := (DecisionTree.derived.select v).result

end VerifierBench
