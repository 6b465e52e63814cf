import Mathlib.Data.List.Basic
import VerifierBench.Proofs.Campaign.Detection
import VerifierBench.Proofs.Tree.Shape

/-! Which faults the derived tree refuses. There is a guard at a site if its candidate is neither
excluded nor the fallback, and it has one conjunct for each contender behind the candidate. -/
namespace VerifierBench

namespace Position
variable {p q : Position}

/-- What follows the first place of a position in a list. -/
def later (p : Position) (ps : List Position) : List Position := ps.drop (ps.idxOf p + 1)

lemma later_cons_self (p : Position) (ps : List Position) : p.later (p :: ps) = ps := by
  simp [later]

lemma later_cons_of_ne (h : q ≠ p) (ps : List Position) : p.later (q :: ps) = p.later ps := by
  rw [later, List.idxOf_cons_ne ps h, List.drop_succ_cons, later]

end Position

/-- A candidate of a derived cascade is guarded against all that follow it; there is no other guard. -/
theorem Cascade.guard?_derive_eq (e : Extremum) (ps : List Position) (fallback p : Position) :
    (derive e ps fallback).guard? p = if p ∈ ps then
      some ((p.later (ps ++ [fallback])).map (Comparison.mk p)) else none := by
  induction ps with
  | nil => simp [guard?, derive, deriveBranches]
  | cons q ps ih =>
    rw [guard?, derive] at ih ⊢
    by_cases hq : q = p
    · subst hq
      simp [deriveBranches, Position.later_cons_self]
    · simp only [deriveBranches, List.find?_cons, hq, decide_false, ih, List.cons_append,
        Position.later_cons_of_ne hq, List.mem_cons, Ne.symm hq, false_or]

namespace FaultSite

/-- The candidate is neither excluded nor the fallback. -/
def Guarded (s : FaultSite) : Prop :=
  s.chosen ≠ some s.candidate ∧ s.contenders.getLast? ≠ some s.candidate

/-- The contenders that the candidate has to beat. -/
def rivals (s : FaultSite) : List Position := s.candidate.later s.contenders

lemma mem_contenders_iff {s : FaultSite} {z : Position} :
    z ∈ s.contenders ↔ s.chosen ≠ some z := by
  refine ⟨chosen_ne_some, fun h => ?_⟩
  cases s with
  | maxGuard p => exact z.mem_all
  | minGuard m p =>
    rw [chosen, ne_eq, Option.some_inj] at h
    exact DecisionTree.mem_others.mpr (Ne.symm h)

lemma guarded_iff (s : FaultSite) : s.Guarded ↔ s.candidate ∈ s.contenders.dropLast := by
  obtain ⟨before, last, hsplit⟩ : ∃ before last, s.contenders = before ++ [last] :=
    ⟨_, _, (List.dropLast_concat_getLast s.contenders_ne_nil).symm⟩
  have hnodup := s.contenders_nodup
  rw [Guarded, ← mem_contenders_iff]
  rw [hsplit] at hnodup ⊢
  rw [List.dropLast_concat, List.getLast?_concat, ne_eq, Option.some_inj]
  -- No contender is named twice, so the last one is not among those before it.
  grind

end FaultSite

namespace DecisionTree

lemma guardLength?_of_guarded {s : FaultSite} (h : s.Guarded) :
    derived.guardLength? s = some s.rivals.length := by
  rw [guardLength?, cascadeAt_derived, deriveOver, Cascade.guard?_derive_eq,
    if_pos (s.guarded_iff.mp h), dropLast_append_getLastD s.contenders_ne_nil, Option.map_some,
    List.length_map, FaultSite.rivals]

lemma guardLength?_of_not_guarded {s : FaultSite} (h : ¬ s.Guarded) :
    derived.guardLength? s = none := by
  rw [guardLength?, cascadeAt_derived, deriveOver, Cascade.guard?_derive_eq,
    if_neg (s.guarded_iff.not.mp h), Option.map_none]

end DecisionTree

/-- Why the derived tree refuses a fault. -/
inductive Fault.Refused (f : Fault) : Error → Prop
  | unguarded (h : ¬ f.site.Guarded) : Refused f (.unknownFaultSite f.site)
  | pastEnd (h : f.site.Guarded) (hconjunct : f.site.rivals.length ≤ f.conjunct.toNat) :
      Refused f (.conjunctOutOfRange f.site f.conjunct f.site.rivals.length)

/-- A fault is refused for one reason or accepted. -/
theorem DecisionTree.inject_derived_eq_error_iff {f : Fault} {cause : Error} :
    derived.inject f = .error cause ↔ f.Refused cause := by
  rw [inject_eq_error_iff]
  by_cases h : f.site.Guarded
  · rw [guardLength?_of_guarded h]
    constructor
    · rintro (⟨hnone, -⟩ | ⟨n, hn, hlong, rfl⟩)
      · cases hnone
      · cases hn
        exact .pastEnd h hlong
    · rintro (hbad | ⟨-, hlong⟩)
      · exact absurd h hbad
      · exact .inr ⟨_, rfl, hlong, rfl⟩
  · rw [guardLength?_of_not_guarded h]
    constructor
    · rintro (⟨-, rfl⟩ | ⟨n, hn, -⟩)
      · exact .unguarded h
      · cases hn
    · rintro (- | ⟨hgood, -⟩)
      · exact .inl ⟨rfl, rfl⟩
      · exact absurd hgood h

end VerifierBench
