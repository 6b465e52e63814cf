import Mathlib.Data.Nat.Notation
import Mathlib.Logic.Function.Iterate
import Mathlib.Tactic.Choose
import VerifierBench.Source.Basic

/-! Sources that never fail, as infinite streams of words. -/
namespace VerifierBench

namespace Nondet
variable {σ : Type} {source : Nondet σ} {s : σ} {words : ℕ → Int32}

/-- From state to state, the source gives the words of a stream. -/
def Draws (source : Nondet σ) (states : ℕ → σ) (words : ℕ → Int32) : Prop :=
  ∀ n, source.draw (states n) = .ok (words n, states (n + 1))

/-- Draw after draw, the source gives the words of a stream. -/
def Supplies (source : Nondet σ) (s : σ) (words : ℕ → Int32) : Prop :=
  ∃ states : ℕ → σ, states 0 = s ∧ ∀ n, source.draw (states n) = .ok (words n, states (n + 1))

theorem Supplies.next (h : source.Supplies s words) :
    ∃ s', source.draw s = .ok (words 0, s') ∧ source.Supplies s' fun n => words (n + 1) := by
  obtain ⟨states, rfl, hdraw⟩ := h
  exact ⟨states 1, hdraw 0, fun n => states (n + 1), rfl, fun n => hdraw (n + 1)⟩

/-- States from which every draw gives a word and leads to such a state again supply a stream. -/
theorem exists_supplies {P : σ → Prop}
    (hdraw : ∀ s, P s → ∃ x s', source.draw s = .ok (x, s') ∧ P s') (hs : P s) :
    ∃ words, source.Supplies s words := by
  -- A next state is chosen once for each state, and the stream is read off the iterates.
  have : Nonempty σ := ⟨s⟩
  choose! word next hdraw hnext using hdraw
  have hreached : ∀ n, P (next^[n] s) := by
    intro n
    induction n with
    | zero => exact hs
    | succ n ih =>
      rw [Function.iterate_succ_apply']
      exact hnext _ ih
  refine ⟨fun n => word (next^[n] s), fun n => next^[n] s, rfl, fun n => ?_⟩
  simp only [Function.iterate_succ_apply']
  exact hdraw _ (hreached n)

end Nondet

/-- What is left of random words when `n` of them were given out. -/
def WordStream.after (s : WordStream) (n : ℕ) : WordStream := (fun s => s.next.2)^[n] s

lemma WordStream.after_succ (s : WordStream) (n : ℕ) : s.after (n + 1) = (s.after n).next.2 :=
  Function.iterate_succ_apply' _ n s

namespace Source
variable {values : List Int32}

/-- The words that replaying a list gives. -/
def replayed (values : List Int32) (n : ℕ) : Int32 := values.getD (n % values.length) 0

/-- How much of the list is used up after `n` draws; it is started over by the next draw only. -/
def used (values : List Int32) : ℕ → ℕ
  | 0 => 0
  | n + 1 => n % values.length + 1

lemma used_mod (values : List Int32) (n : ℕ) :
    used values n % values.length = n % values.length := by
  cases n with
  | zero => rfl
  | succ n => exact Nat.mod_add_mod n values.length 1

lemma used_le (h : 0 < values.length) (n : ℕ) : used values n ≤ values.length := by
  cases n with
  | zero => exact Nat.zero_le _
  | succ n => exact Nat.mod_lt n h

/-- A list that is used up is started over by the draw that finds it so. -/
lemma draw_cycle_drop (h : 0 < values.length) {i : ℕ} (hi : i ≤ values.length) :
    draw (.cycle values (values.drop i)) = .ok (values.getD (i % values.length) 0,
      .cycle values (values.drop (i % values.length + 1))) := by
  rcases Nat.lt_or_eq_of_le hi with hlt | rfl
  · rw [List.drop_eq_getElem_cons hlt, draw, Nat.mod_eq_of_lt hlt, List.getD_eq_getElem?_getD,
      List.getElem?_eq_getElem hlt, Option.getD_some]
  · obtain ⟨x, xs, rfl⟩ := List.exists_cons_of_length_pos h
    rw [List.drop_length, Nat.mod_self]
    rfl

/-- The state in which replaying a list is after `n` draws. -/
def replaying (values : List Int32) (n : ℕ) : Source :=
  .cycle values (values.drop (used values n))

lemma draws_fixed (values : List Int32) : nondet.Draws (replaying values) (replayed values) := by
  intro n
  rcases Nat.eq_zero_or_pos values.length with hempty | hpos
  · obtain rfl := List.eq_nil_of_length_eq_zero hempty
    simp only [replaying, List.drop_nil]
    rfl
  · have hdraw := draw_cycle_drop hpos (used_le hpos n)
    rwa [used_mod] at hdraw

/-- Replaying a list gives its words over and over, and zeros if there are none. -/
theorem supplies_fixed (values : List Int32) :
    nondet.Supplies (.fixed values) (replayed values) :=
  ⟨replaying values, rfl, draws_fixed values⟩

/-- The words that a random source gives if it is not narrowed to a range. -/
def randomWords (seed : UInt64) (n : ℕ) : Int32 :=
  ((WordStream.seeded seed).after n).next.1.toInt32

lemma draws_seeded (seed : UInt64) :
    nondet.Draws (fun n => .random ((WordStream.seeded seed).after n) none) (randomWords seed) := by
  intro n
  simp only [WordStream.after_succ]
  rfl

theorem supplies_seeded (seed : UInt64) :
    nondet.Supplies (.seeded seed none) (randomWords seed) :=
  ⟨_, rfl, draws_seeded seed⟩

/-- No part of the source draws from a range; a range may be empty. -/
def Unranged : Source → Prop
  | cycle _ _ => True
  | random _ range => range = none
  | interleave primary secondary _ _ => primary.Unranged ∧ secondary.Unranged

theorem Unranged.draw {s : Source} (h : s.Unranged) :
    ∃ x s', s.draw = .ok (x, s') ∧ s'.Unranged := by
  induction s with
  | cycle values rest =>
    cases rest with
    | cons x rest => exact ⟨x, .cycle values rest, by rw [Source.draw], trivial⟩
    | nil =>
      cases values with
      | nil => exact ⟨0, .cycle [] [], by rw [Source.draw], trivial⟩
      | cons x values => exact ⟨x, .cycle (x :: values) values, by rw [Source.draw], trivial⟩
  | random words range =>
    obtain rfl : range = none := h
    exact ⟨words.next.1.toInt32, .random words.next.2 none, by rw [Source.draw], rfl⟩
  | interleave primary secondary period drawn ihprimary ihsecondary =>
    obtain ⟨hprimary, hsecondary⟩ := h
    rw [Source.draw]
    split
    · obtain ⟨x, s', hdraw, hs'⟩ := ihsecondary hsecondary
      exact ⟨x, .interleave primary s' period (drawn + 1), by rw [hdraw]; rfl, hprimary, hs'⟩
    · obtain ⟨x, s', hdraw, hs'⟩ := ihprimary hprimary
      exact ⟨x, .interleave s' secondary period (drawn + 1), by rw [hdraw]; rfl, hs', hsecondary⟩

theorem Unranged.exists_supplies {s : Source} (h : s.Unranged) :
    ∃ words, nondet.Supplies s words :=
  Nondet.exists_supplies (fun _ hs => hs.draw) h

end Source
end VerifierBench
