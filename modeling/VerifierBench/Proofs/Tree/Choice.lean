import Mathlib.Data.Set.Operations
import Mathlib.Order.Bounds.Basic
import VerifierBench.Proofs.Tree.Extrema

/-! Choices by place. Among any candidates in any order, repetitions included, a derived cascade takes
the one at the last place where an extremal word stands; there is exactly one such place. -/
namespace VerifierBench

namespace Extremum

/-- The word is the greatest, or the least, of some words. -/
def IsBest : Extremum → Set Int32 → Int32 → Prop
  | max => IsGreatest
  | min => IsLeast

variable {e : Extremum} {v : Sextuple} {ps : List Position} {p : Position}

lemma isBest_iff (hp : p ∈ ps) :
    e.IsBest (v.get '' {q | q ∈ ps}) (v.get p) ↔
      ∀ q ∈ ps, e.prefers (v.get q) (v.get p) = false := by
  cases e with
  | max =>
    simp only [prefers, decide_eq_false_iff_not, Int32.not_lt]
    constructor
    · rintro ⟨-, hupper⟩ q hq
      exact hupper ⟨q, hq, rfl⟩
    · intro h
      refine ⟨⟨p, hp, rfl⟩, ?_⟩
      rintro _ ⟨q, hq, rfl⟩
      exact h q hq
  | min =>
    simp only [prefers, decide_eq_false_iff_not, Int32.not_lt]
    constructor
    · rintro ⟨-, hlower⟩ q hq
      exact hlower ⟨q, hq, rfl⟩
    · intro h
      refine ⟨⟨p, hp, rfl⟩, ?_⟩
      rintro _ ⟨q, hq, rfl⟩
      exact h q hq

end Extremum

/-- The places in a list whose words are extremal among all words of the list. -/
def extremalPlaces (e : Extremum) (v : Sextuple) (ps : List Position) : Set ℕ :=
  {i | ∃ p, ps[i]? = some p ∧ e.IsBest (v.get '' {q | q ∈ ps}) (v.get p)}

/-- Behind the last extremal place every word is strictly worse, so no place there is extremal. -/
lemma LastExtremal.isGreatest {e : Extremum} {v : Sextuple} {ps : List Position} {p : Position}
    (h : LastExtremal e v ps p) :
    ∃ i, IsGreatest (extremalPlaces e v ps) i ∧ ps[i]? = some p := by
  have hbest := (Extremum.isBest_iff h.mem).mpr fun q hq => h.not_prefers hq
  have hp := h.mem
  obtain ⟨before, after, rfl, -, hafter⟩ := h
  have hplace : (before ++ p :: after)[before.length]? = some p := by simp
  refine ⟨before.length, ⟨⟨p, hplace, hbest⟩, ?_⟩, hplace⟩
  rintro i ⟨q, hq, hqbest⟩
  by_contra hlater
  obtain ⟨k, hk⟩ : ∃ k, i = before.length + (k + 1) := ⟨i - before.length - 1, by omega⟩
  have hqafter : q ∈ after := by
    rw [hk, List.getElem?_append_right (by omega), Nat.add_sub_cancel_left,
      List.getElem?_cons_succ] at hq
    exact List.mem_of_getElem? hq
  have hworse := (Extremum.isBest_iff (List.mem_of_getElem? hq)).mp hqbest p hp
  rw [hafter q hqafter] at hworse
  cases hworse

/-- A derived cascade picks a position exactly if it stands at the last extremal place of the
candidates and the fallback behind them. -/
theorem Cascade.resolve_derive_eq_iff (e : Extremum) (candidates : List Position)
    (fallback : Position) (v : Sextuple) (p : Position) :
    (derive e candidates fallback).resolve v = p ↔
      ∃ i, IsGreatest (extremalPlaces e v (candidates ++ [fallback])) i ∧
        (candidates ++ [fallback])[i]? = some p := by
  obtain ⟨i, hi, hpick⟩ := (lastExtremal_derive e candidates fallback v).isGreatest
  constructor
  · rintro rfl
    exact ⟨i, hi, hpick⟩
  · rintro ⟨j, hj, hp⟩
    rw [hj.unique hi, hpick] at hp
    exact Option.some.inj hp

/-- The words are 5, 5, 5, 1, 1, and the last greatest one stands where `b` is named again. -/
example : (Cascade.derive .max [.b, .a, .b, .c] .d).resolve ⟨5, 5, 1, 1, 9, 9⟩ = .b := by decide

end VerifierBench
