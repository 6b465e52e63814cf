import VerifierBench.Proofs.Fixture.Catalogue
import VerifierBench.Proofs.Fixture.CounterProgram

/-! The two fixtures that draw a word, against literal executions of their programs. The fixtures
sum up their loops and make one assertion for all runs of a loop body; the executions take every
step. -/
namespace VerifierBench

namespace CounterProgram
variable {l : Location} {x y : Int32}

/-- Each run of the outer body takes 5001 steps up and 5000 steps down. -/
def nestedBody : CounterProgram :=
  .seq (.times 5001 (.add 1))
    (.seq (.times 5000 (.add (-1))) (.assert "x" (.notEquals 1000000)))

/-- `while (x < 1000000) { repeat 5001: x += 1; repeat 5000: x -= 1; assert(x != 1000000); }` -/
def nestedLoops : CounterProgram := .whileHolds (.below 1000000) nestedBody

/-- `if (x < 1000000) { while (x < 1000000) x += 1; assert(x == 1000000);`
`while (x < 100000000) x += 1; assert(x != 100000000); }` -/
def boundSaturation : CounterProgram :=
  .ifHolds (.below 1000000)
    (.seq (.whileHolds (.below 1000000) (.add 1))
      (.seq (.assert "x" (.equals 1000000))
        (.seq (.whileHolds (.below 100000000) (.add 1)) (.assert "x" (.notEquals 100000000)))))

/-- One run of the outer body leaves the counter one higher and asserts there. -/
lemma executes_nestedBody (hx : x < 1000000) (hy : y.toInt = x.toInt + 1) :
    Executes l nestedBody x
      (((ScalarPredicate.notEquals 1000000).judge l "x" y).violations.map .failed) y := by
  have hl := x.le_toInt
  have hbound : x.toInt < 1000000 := Int32.lt_iff_toInt_lt.mp hx
  have hone : (1 : Int32).toInt = 1 := rfl
  have hminus : (-1 : Int32).toInt = -1 := rfl
  have htop : (Int32.ofInt (x.toInt + 5001)).toInt = x.toInt + 5001 :=
    toInt_ofInt_of_isInt32 (by rw [isInt32_iff]; omega)
  exact .seq (executes_times_add 5001 (by rw [htop, hone]; omega))
    (.seq (executes_times_add 5000 (by rw [htop, hminus]; omega)) .assert)

/-- The forbidden value is met by the last run of the outer body, and only then. -/
theorem fails_nestedLoops (l : Location) (x : Int32) :
    nestedLoops.Fails l x (if x < 1000000 then
      ((ScalarPredicate.notEquals 1000000).judge l "x" 1000000).violations else []) := by
  split
  · next hx =>
    refine (executes_whileBelow (fun x y hx hy => ?_) hx).fails
    have hrun := executes_nestedBody (l := l) hx hy
    split
    · next hlast =>
      subst hlast
      exact hrun
    · next hne =>
      have hholds : (ScalarPredicate.notEquals 1000000).holds y = true := bne_iff_ne.mpr hne
      rwa [ScalarPredicate.judge, if_pos hholds] at hrun
  · next hx => exact Executes.fails (.stop (decide_eq_false hx))

/-- Counting up in steps of one is silent and ends at the bound. -/
lemma executes_countUp {bound : Int32} (h : x < bound) :
    Executes l (.whileHolds (.below bound) (.add 1)) x [] bound := by
  refine executes_whileBelow (fun x y _ hy => ?_) h
  rw [ite_self]
  exact executes_add hy

theorem fails_boundSaturation (l : Location) (x : Int32) :
    boundSaturation.Fails l x (if x < 1000000 then
      ((ScalarPredicate.notEquals 100000000).judge l "x" 100000000).violations else []) := by
  split
  · next hx =>
    have hnext : (1000000 : Int32) < 100000000 := by decide
    exact Executes.fails (.enter (decide_eq_true hx)
      (.seq (executes_countUp hx) (.seq .assert (.seq (executes_countUp hnext) .assert))))
  · next hx => exact Executes.fails (.skip (decide_eq_false hx))

end CounterProgram

namespace Fixture
open Script
variable {σ : Type} {source : Nondet σ} {s s' : σ} {x : Int32}

/-- On the drawn word `x` the fixture and the literal program agree: the program fails the
assertions `vs` and no others, and these are what the fixture reports, whatever the sink and the
limit. -/
structure Follows (f : Fixture) (program : CounterProgram) (source : Nondet σ) (s s' : σ) (x : Int32)
    (vs : List Violation) : Prop where
  executed : program.Fails f.location x vs
  run_eq : ∀ {μ : Type} (sink : Sink μ) (limit : UInt64) (m : μ),
    f.run source sink limit s m = (.ok (), s', reportAll sink f.location vs m)
  check_eq : ∀ limit, f.check source limit s =
    .ok (.ofRecords (vs.map fun v => ⟨f.location.text, v.text⟩))
  reached_iff : vs ≠ [] ↔ x < 1000000
  length_le : vs.length ≤ 1

/-- A program that draws one word and, below the bound, makes one assertion that fails. -/
lemma follows_of_script {f : Fixture} {program : CounterProgram} {script : UInt64 → Script Unit}
    {next : Int32 → Script Unit} {p : ScalarPredicate} {y : Int32}
    (hbody : f.body = .program script) (hscript : ∀ limit, script limit = draw next)
    (h : source.draw s = .ok (x, s')) (hp : p.holds y = false)
    (hnext : ∀ {μ : Type} (sink : Sink μ) (m : μ), (next x).run source sink f.location s' m =
      (.ok (), s', if x < 1000000 then (p.judge f.location "x" y).report f.location sink m else m))
    (hfails : program.Fails f.location x
      (if x < 1000000 then (p.judge f.location "x" y).violations else [])) :
    ∃ vs, f.Follows program source s s' x vs := by
  have hrun : ∀ {μ : Type} (sink : Sink μ) (limit : UInt64) (m : μ),
      f.run source sink limit s m = (.ok (), s', reportAll sink f.location
        (if x < 1000000 then (p.judge f.location "x" y).violations else []) m) := by
    intro μ sink limit m
    simp only [Fixture.run, hbody, hscript, Script.run, h, hnext, ← reportAll_violations]
    split <;> rfl
  refine ⟨_, hfails, hrun, fun limit => ?_, ?_, ?_⟩
  · simp only [check, hrun, reportAll_recorder]
    rfl
  · by_cases hx : x < 1000000 <;> simp [hx, ScalarPredicate.judge, hp, Verdict.violations]
  · by_cases hx : x < 1000000 <;> simp [hx, ScalarPredicate.judge, hp, Verdict.violations]

/-- On every drawn word and for every limit, both fixtures that draw a word report exactly what
literal executions of their programs fail: one assertion if the word is below the bound, and none
otherwise. -/
theorem drawn_word_followed (h : source.draw s = .ok (x, s')) :
    (∃ f vs, find "nested_nondet_loop" = .ok f ∧
      f.Follows CounterProgram.nestedLoops source s s' x vs) ∧
    (∃ f vs, find "nondet_bound_saturation" = .ok f ∧
      f.Follows CounterProgram.boundSaturation source s s' x vs) := by
  constructor
  · obtain ⟨vs, hfollows⟩ := follows_of_script (f := all[5]) rfl nestedNondetLoop_eq h (by decide)
      (fun sink m => by split <;> rfl) (CounterProgram.fails_nestedLoops _ x)
    exact ⟨_, vs, rfl, hfollows⟩
  · obtain ⟨vs, hfollows⟩ := follows_of_script (f := all[4]) rfl nondetBoundSaturation_eq h
      (by decide) (fun sink m => by split <;> rfl) (CounterProgram.fails_boundSaturation _ x)
    exact ⟨_, vs, rfl, hfollows⟩

/-- From the least word the outer loop runs more than two thousand million times and fails once. -/
theorem least_word_followed : ∃ s' f v,
    Source.nondet.draw (.fixed [Int32.minValue]) = .ok (Int32.minValue, s') ∧
    find "nested_nondet_loop" = .ok f ∧
    CounterProgram.nestedLoops.Fails f.location Int32.minValue [v] ∧
    ∀ limit, f.check Source.nondet limit (.fixed [Int32.minValue]) =
      .ok (.violated [⟨f.location.text, v.text⟩]) := by
  obtain ⟨s', hdraw⟩ : ∃ s', Source.nondet.draw (.fixed [Int32.minValue]) =
      .ok (Int32.minValue, s') := ⟨_, rfl⟩
  obtain ⟨⟨f, vs, hfind, hfollows⟩, -⟩ := drawn_word_followed hdraw
  obtain ⟨v, rfl⟩ : ∃ v, vs = [v] := by
    have hne := hfollows.reached_iff.mpr (by decide)
    exact List.length_eq_one_iff.mp
      (Nat.le_antisymm hfollows.length_le (List.length_pos_iff.mpr hne))
  exact ⟨s', f, v, hdraw, hfind, hfollows.executed, hfollows.check_eq⟩

end Fixture
end VerifierBench
