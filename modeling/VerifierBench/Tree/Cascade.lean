import VerifierBench.Position

/-! Cascades: chains of guarded branches that pick a position, ending in an unguarded fallback.
A derived cascade compares each candidate with everything after it. -/
namespace VerifierBench

inductive Extremum
  | max | min
  deriving DecidableEq, Repr

namespace Extremum

def name : Extremum → String
  | max => "max" | min => "min"

def operator : Extremum → Char
  | max => '>' | min => '<'

/-- Strictly nearer to the extremum. -/
def prefers : Extremum → Int32 → Int32 → Bool
  | max, x, y => decide (y < x)
  | min, x, y => decide (x < y)

end Extremum

/-- A conjunct of a guard: the left position is strictly preferred to the right one. -/
structure Comparison where
  lhs : Position
  rhs : Position
  deriving DecidableEq, Repr

namespace Comparison

def holds (c : Comparison) (e : Extremum) (v : Sextuple) : Bool :=
  e.prefers (v.get c.lhs) (v.get c.rhs)

def text (c : Comparison) (e : Extremum) : String :=
  String.ofList [c.lhs.letter, e.operator, c.rhs.letter]

end Comparison

/-- A candidate with the conjunction that selects it. -/
structure Branch where
  candidate : Position
  guard : List Comparison
  deriving DecidableEq, Repr

def Branch.accepts (b : Branch) (e : Extremum) (v : Sextuple) : Bool :=
  b.guard.all fun c => c.holds e v

/-- Branches that are tried in order, and the position taken when none accepts. -/
structure Cascade where
  extremum : Extremum
  branches : List Branch
  fallback : Position
  deriving DecidableEq, Repr

namespace Cascade

/-- Each candidate has to beat all later candidates and the fallback. -/
def deriveBranches (fallback : Position) : List Position → List Branch
  | [] => []
  | p :: later => ⟨p, (later ++ [fallback]).map (Comparison.mk p)⟩ :: deriveBranches fallback later

/-- The correct cascade over candidates in order of precedence. -/
def derive (e : Extremum) (candidates : List Position) (fallback : Position) : Cascade :=
  ⟨e, deriveBranches fallback candidates, fallback⟩

/-- The candidate of the first accepting branch, or the fallback. -/
def resolve (c : Cascade) (v : Sextuple) : Position :=
  match c.branches.find? fun b => b.accepts c.extremum v with
  | some b => b.candidate
  | none => c.fallback

/-- The positions a cascade can pick, in order of precedence. -/
def outcomes (c : Cascade) : List Position :=
  c.branches.map Branch.candidate ++ [c.fallback]

def guard? (c : Cascade) (p : Position) : Option (List Comparison) :=
  (c.branches.find? fun b => b.candidate = p).map Branch.guard

/-- Changes the guard of the first branch for a candidate. -/
def modifyBranches (p : Position) (g : List Comparison → List Comparison) :
    List Branch → List Branch
  | [] => []
  | b :: bs =>
    if b.candidate = p then { b with guard := g b.guard } :: bs else b :: modifyBranches p g bs

/-- Puts a comparison in the place of one conjunct of a candidate's guard. -/
def replaceConjunct (c : Cascade) (p : Position) (n : Nat) (r : Comparison) : Cascade :=
  { c with branches := modifyBranches p (fun guard => guard.set n r) c.branches }

@[simp] theorem deriveBranches_candidates (fallback : Position) (ps : List Position) :
    (deriveBranches fallback ps).map Branch.candidate = ps := by
  induction ps with
  | nil => rfl
  | cons p ps ih => simp [deriveBranches, ih]

@[simp] theorem outcomes_derive (e : Extremum) (ps : List Position) (fallback : Position) :
    (derive e ps fallback).outcomes = ps ++ [fallback] := by
  simp [outcomes, derive]

@[simp] theorem modifyBranches_candidates (p : Position) (g : List Comparison → List Comparison)
    (bs : List Branch) :
    (modifyBranches p g bs).map Branch.candidate = bs.map Branch.candidate := by
  induction bs with
  | nil => rfl
  | cons b bs ih => simp only [modifyBranches]; split <;> simp [ih]

theorem resolve_mem_outcomes (c : Cascade) (v : Sextuple) : c.resolve v ∈ c.outcomes := by
  simp only [resolve, outcomes]
  split
  · next b hb => exact List.mem_append_left _ (List.mem_map_of_mem (List.mem_of_find?_eq_some hb))
  · simp

end Cascade
end VerifierBench
