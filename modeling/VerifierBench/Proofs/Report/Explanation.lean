import Mathlib.Data.List.Nodup
import VerifierBench.Proofs.Report.Oracle

/-! The explanation of a verdict. Whether the postcondition holds is found by one pass over the
positions, and what is wrong by two others; both agree with the twelve conjuncts taken one by one, and
so does what the sink is told. -/
namespace VerifierBench

/-- A conjunct of the postcondition: the claimed maximum, or minimum, is a bound of one input. -/
structure Bound where
  extremum : Extremum
  position : Position
  deriving DecidableEq

namespace Bound

/-- All twelve, in the order in which they are explained. -/
def all : List Bound :=
  Position.all.map (Bound.mk .max) ++ Position.all.map (Bound.mk .min)

def text (b : Bound) : String :=
  match b.extremum with
  | .max => "max >= " ++ b.position.name
  | .min => "min <= " ++ b.position.name

/-- The conjunct is true of some inputs and a claimed pair. -/
def Holds (b : Bound) (v : Sextuple) (r : Extrema) : Prop :=
  match b.extremum with
  | .max => v.get b.position ≤ r.max
  | .min => r.min ≤ v.get b.position

instance (b : Bound) (v : Sextuple) (r : Extrema) : Decidable (b.Holds v r) := by
  unfold Holds
  split <;> infer_instance

lemma mem_all (b : Bound) : b ∈ all := by
  obtain ⟨e, p⟩ := b
  cases e <;> simp [all, Position.mem_all]

lemma nodup_all : all.Nodup := by decide

/-- Conjuncts are told apart by their texts. -/
lemma text_injective : Function.Injective text := by
  rintro ⟨e, p⟩ ⟨e', q⟩ h
  rw [text, text, ← String.toList_inj] at h
  cases e <;> cases e' <;> simp [Position.name, Position.letter_inj] at h <;> rw [h]

lemma forall_holds_iff {v : Sextuple} {r : Extrema} :
    (∀ b : Bound, b.Holds v r) ↔ ∀ p, v.get p ≤ r.max ∧ r.min ≤ v.get p := by
  constructor
  · exact fun h p => ⟨h ⟨.max, p⟩, h ⟨.min, p⟩⟩
  · rintro h ⟨e, p⟩
    cases e with
    | max => exact (h p).1
    | min => exact (h p).2

end Bound

namespace Oracle
variable {v : Sextuple} {r : Extrema}

/-- The texts name the false conjuncts and no others, each once and in order. -/
structure Explains (failed : List String) (v : Sextuple) (r : Extrema) : Prop where
  in_order : failed = (Bound.all.filter fun b => ¬ b.Holds v r).map Bound.text
  nodup : failed.Nodup
  mem_iff : ∀ b : Bound, b.text ∈ failed ↔ ¬ b.Holds v r

lemma Explains.of_in_order {failed : List String}
    (h : failed = (Bound.all.filter fun b => ¬ b.Holds v r).map Bound.text) :
    Explains failed v r := by
  refine ⟨h, ?_, fun b => ?_⟩
  · rw [h]
    exact (Bound.nodup_all.filter _).map Bound.text_injective
  · rw [h, List.mem_map_of_injective Bound.text_injective, List.mem_filter, decide_eq_true_eq]
    exact and_iff_right b.mem_all

/-- The two passes over the positions find the false conjuncts in order. -/
theorem explains_failedConjuncts (v : Sextuple) (r : Extrema) :
    Explains (failedConjuncts v r) v r := by
  apply Explains.of_in_order
  simp only [failedConjuncts, Bound.all, List.filter_append, List.map_append, List.filter_map,
    List.map_map, Function.comp_def, Bound.Holds, Int32.not_le, Bound.text]

/-- Nothing is found wrong exactly if the pass that looks for the truth value finds it true. -/
theorem failedConjuncts_eq_nil_iff : failedConjuncts v r = [] ↔ postconditionHolds v r = true := by
  rw [postconditionHolds_iff, ← Bound.forall_holds_iff, (explains_failedConjuncts v r).in_order,
    List.map_eq_nil_iff, List.filter_eq_nil_iff]
  simp only [decide_eq_true_eq, not_not, Bound.mem_all, true_imp_iff]

/-- The oracle holds its peace about a pair that bounds all inputs. About any other it names the false
conjuncts among the twelve, and tells the sink once, at its own location and with the text of the
violation. -/
theorem check_explained (v : Sextuple) (r : Extrema) :
    ∃ (verdict : Verdict) (calls : List (Location × String)),
      (∀ (μ : Type) (sink : Sink μ) (m : μ), check sink v r m =
        (verdict, calls.foldl (fun m call => sink.reach call.1 call.2 m) m)) ∧
      (verdict = .holds ∧ calls = [] ↔ ∀ p, v.get p ≤ r.max ∧ r.min ≤ v.get p) ∧
      ((∀ p, v.get p ≤ r.max ∧ r.min ≤ v.get p) ∨
        ∃ x, verdict = .violated x ∧ calls = [(location, x.text)] ∧
          x.failed ≠ [] ∧ Explains x.failed v r) ∧
      Bound.all.map Bound.text =
        ["max >= a", "max >= b", "max >= c", "max >= d", "max >= e", "max >= f",
          "min <= a", "min <= b", "min <= c", "min <= d", "min <= e", "min <= f"] ∧
      Explains (failedConjuncts v r) v r ∧
      (failedConjuncts v r = [] ↔ postconditionHolds v r = true) := by
  have hall : Bound.all.map Bound.text =
      ["max >= a", "max >= b", "max >= c", "max >= d", "max >= e", "max >= f",
        "min <= a", "min <= b", "min <= c", "min <= d", "min <= e", "min <= f"] := by decide
  have hexplains := explains_failedConjuncts v r
  by_cases hholds : postconditionHolds v r = true
  · have hbounds := (postconditionHolds_iff v r).mp hholds
    have hjudge : judge v r = .holds := if_pos hholds
    refine ⟨.holds, [], ?_, ?_, .inl hbounds, hall, hexplains, failedConjuncts_eq_nil_iff⟩
    · intro μ sink m
      rw [check, hjudge]
      rfl
    · exact ⟨fun _ => hbounds, fun _ => ⟨rfl, rfl⟩⟩
  · obtain ⟨x, hjudge, hx⟩ : ∃ x, judge v r = .violated x ∧ x.failed = failedConjuncts v r :=
      ⟨_, if_neg hholds, rfl⟩
    have hfailed : x.failed ≠ [] := hx ▸ failedConjuncts_eq_nil_iff.not.mpr hholds
    refine ⟨.violated x, [(location, x.text)], ?_, ?_, .inr ⟨x, rfl, rfl, hfailed, hx ▸ hexplains⟩,
      hall, hexplains, failedConjuncts_eq_nil_iff⟩
    · intro μ sink m
      rw [check, hjudge]
      rfl
    · rw [← postconditionHolds_iff]
      constructor
      · rintro ⟨hverdict, -⟩
        cases hverdict
      · exact fun h => absurd h hholds

/-- A claimed maximum below `b` and a claimed minimum above `c`. -/
example : failedConjuncts ⟨3, 9, -4, 0, 0, 7⟩ ⟨7, 0⟩ = ["max >= b", "min <= c"] := by decide

end Oracle
end VerifierBench
