import VerifierBench.Fixture.Catalogue
import VerifierBench.Proofs.Fixture.Script

/-! The programs of the catalogue without their loops. -/
namespace VerifierBench

namespace GuardedLoop
variable {bound x : Int32}

/-- Steps of one meet the bound exactly. -/
lemma iterations_whileBelow_one (h : x ≤ bound) :
    (whileBelow bound 1).iterations x = .ok (UInt64.ofNat (bound.toInt - x.toInt).toNat) := by
  have hone : (1 : Int32).toInt = 1 := rfl
  rw [Int32.le_iff_toInt_le] at h
  by_cases hlt : x < bound
  · have hcover : stepsToCover (bound.toInt - x.toInt) 1 = bound.toInt - x.toInt := by
      rw [stepsToCover, Int.ediv_one]
      omega
    have hlast : x.toInt + (bound.toInt - x.toInt) * 1 = bound.toInt := by omega
    simp only [iterations, whileBelow, Guard.holds, approach?, stepsToExit, hone, hcover, hlast, hlt,
      isInt32_toInt, decide_true, if_true, Int.zero_lt_one]
  · have hzero : (bound.toInt - x.toInt).toNat = 0 := by
      rw [Int32.lt_iff_toInt_lt] at hlt
      omega
    rw [hzero]
    simp [iterations, whileBelow, Guard.holds, hlt]

end GuardedLoop

namespace Script
variable {bound x : Int32}

lemma runLoop_whileBelow_one (h : x ≤ bound) (limit : UInt64) :
    runLoop limit (.whileBelow bound 1) x = done bound := by
  have hl := x.le_toInt
  have hu := bound.toInt_lt
  rw [runLoop_eq (GuardedLoop.iterations_whileBelow_one h)]
  rw [Int32.le_iff_toInt_le] at h
  have hcount : (UInt64.ofNat (bound.toInt - x.toInt).toNat).toNat =
      (bound.toInt - x.toInt).toNat := UInt64.toNat_ofNat_of_lt' (by rw [UInt64.size]; omega)
  have hone : (1 : Int32).toInt = 1 := rfl
  have hlast : (GuardedLoop.whileBelow bound 1).counterAfter x (bound.toInt - x.toInt).toNat =
      bound.toInt := by
    simp only [GuardedLoop.counterAfter, GuardedLoop.whileBelow, hone]
    omega
  rw [hcount, hlast, Int32.ofInt_toInt]

end Script

namespace Fixture
open Script

lemma multipleLoopsParity_eq (limit : UInt64) : multipleLoopsParity limit =
    claim "x" .even 1000000 (claim "x" .odd 999998 (done ())) := by
  have hfirst : (GuardedLoop.whileBelow 1000000 2).iterations 0 = .ok 500000 := by decide
  have hsecond : (GuardedLoop.whileBelow Int32.maxValue 1).iterations 0 = .ok 2147483647 := by
    decide
  rw [multipleLoopsParity, runLoop_eq hfirst, hsecond]
  simp only [done_bind, attempt_ok, accumulate_eq, assert, claim_bind]
  rfl

lemma countdownWithCompanion_eq (limit : UInt64) : countdownWithCompanion limit =
    claim "x" (.equals (-10000000)) (-10000000) (claim "y" (.equals 20000000) 20000000 (done ())) := by
  have hcount : (GuardedLoop.whileAbove (-10000000) (-1)).iterations 0 = .ok 10000000 := by decide
  rw [countdownWithCompanion, hcount]
  simp only [done_bind, attempt_ok, accumulate_eq, assert, claim_bind]
  rfl

lemma overflowingOddParity_eq (limit : UInt64) :
    overflowingOddParity limit = claim "x" .odd (-2147483549) (done ()) := by
  have hcount : (GuardedLoop.whileBelow 100 1).iterations 0 = .ok 100 := by decide
  rw [overflowingOddParity, hcount]
  simp only [done_bind, attempt_ok, accumulate_eq, assert]
  rfl

lemma transformedEvenParity_eq (limit : UInt64) :
    transformedEvenParity limit = claim "x" .even (-2146483651) (done ()) := by
  simp only [transformedEvenParity, accumulate_eq, done_bind, assert]
  rfl

lemma nondetBoundSaturation_eq (limit : UInt64) : nondetBoundSaturation limit =
    draw fun x => if x < 1000000 then
      claim "x" (.equals 1000000) 1000000 (claim "x" (.notEquals 100000000) 100000000 (done ()))
    else done () := by
  rw [nondetBoundSaturation, nondet, draw_bind]
  congr 1
  funext x
  rw [done_bind]
  split
  · next h =>
    have hnext : (1000000 : Int32) ≤ 100000000 := by decide
    simp only [runLoop_whileBelow_one (Int32.le_of_lt h), runLoop_whileBelow_one hnext, done_bind,
      assert, claim_bind]
  · rfl

lemma nestedNondetLoop_eq (limit : UInt64) : nestedNondetLoop limit =
    draw fun x => if x < 1000000 then claim "x" (.notEquals 1000000) 1000000 (done ())
    else done () := by
  rw [nestedNondetLoop, nondet, draw_bind]
  congr 1
  funext x
  rw [done_bind]
  split
  · next h =>
    have hnet : Accumulation.closedForm ⟨0, [⟨5001, 1⟩, ⟨5000, -1⟩]⟩ = 1 := by decide
    simp only [accumulate_eq, hnet, done_bind, runLoop_whileBelow_one (Int32.le_of_lt h),
      GuardedLoop.iterations_whileBelow_one (Int32.le_of_lt h), attempt_ok, ite_self]
    rfl
  · rfl

lemma whileBreak_eq (limit : UInt64) : whileBreak limit = done () := by
  have hcount : ({ GuardedLoop.whileBelow 5 1 with breakAt := some 4 } : GuardedLoop).iterations 0 =
      .ok 4 := by decide
  rw [whileBreak, runLoop_eq hcount, done_bind]
  rfl

/-- The conclusion about a fixture: it is the expected one, whatever the limit. -/
structure Meets (x : Fixture) : Prop where
  decided : ∀ {σ : Type} {source : Nondet σ} {s : σ} {words : ℕ → Int32},
    source.Supplies s words → ∃ r, (∀ limit, x.check source limit s = .ok r) ∧
      (x.expectation = .safe → r = .holds) ∧
      (x.expectation = .invalid → ∃ reason, r = .invalidFixture reason)
  /-- A malformed program reports nothing. -/
  silent : x.expectation = .invalid → ∀ {σ μ : Type} (source : Nondet σ) (sink : Sink μ) limit s m,
    ∃ cause, x.run source sink limit s m = (.error cause, s, m)
  reached : x.expectation = .errorReachable → ∃ message, ∀ limit,
    x.checkOn none limit = .ok (.violated [⟨x.location.text, message⟩])

section Program
variable {x : Fixture} {script : UInt64 → Script Unit} {body : Script Unit}

lemma check_eq {σ : Type} {source : Nondet σ} {s : σ} {words : ℕ → Int32}
    (hbody : x.body = .program script) (hscript : ∀ limit, script limit = body)
    (hends : (body.outcome x.location words).1 = .ok ()) (h : source.Supplies s words)
    (limit : UInt64) : x.check source limit s = .ok (.ofRecords
      ((body.outcome x.location words).2.map fun v => ⟨x.location.text, v.text⟩)) := by
  obtain ⟨s', hrun⟩ := run_eq h .recorder x.location body #[]
  rw [hends] at hrun
  simp only [check, Fixture.run, hbody, hscript, hrun, reportAll_recorder]
  rfl

/-- A program without violations on any stream of words is safe. -/
theorem meets_of_safe (hbody : x.body = .program script) (hscript : ∀ limit, script limit = body)
    (hexpected : x.expectation = .safe)
    (hholds : ∀ words, body.outcome x.location words = (.ok (), [])) : x.Meets where
  decided := by
    intro σ source s words h
    have hcheck := check_eq hbody hscript (congrArg Prod.fst (hholds words)) h
    rw [hholds words] at hcheck
    exact ⟨.holds, hcheck, fun _ => rfl, fun hinvalid =>
      absurd (hexpected.symm.trans hinvalid) (by decide)⟩
  silent := fun hinvalid => absurd (hexpected.symm.trans hinvalid) (by decide)
  reached := fun hreached => absurd (hexpected.symm.trans hreached) (by decide)

/-- A program that ends on every stream of words has one violation to show on its witness. -/
theorem meets_of_reachable (hbody : x.body = .program script)
    (hscript : ∀ limit, script limit = body) (hexpected : x.expectation = .errorReachable)
    (hends : ∀ words, (body.outcome x.location words).1 = .ok ())
    (hreached : ∃ v, (body.outcome x.location (Source.replayed x.witness)).2 = [v]) :
    x.Meets where
  decided := by
    intro σ source s words h
    exact ⟨_, check_eq hbody hscript (hends words) h,
      fun hsafe => absurd (hexpected.symm.trans hsafe) (by decide),
      fun hinvalid => absurd (hexpected.symm.trans hinvalid) (by decide)⟩
  silent := fun hinvalid => absurd (hexpected.symm.trans hinvalid) (by decide)
  reached := by
    intro _
    obtain ⟨v, hv⟩ := hreached
    refine ⟨v.text, fun limit => ?_⟩
    have hcheck := check_eq hbody hscript (hends _) (Source.supplies_fixed x.witness) limit
    rw [hv] at hcheck
    exact hcheck

theorem meets_of_malformed {reason : String} (hbody : x.body = .malformed reason)
    (hexpected : x.expectation = .invalid) : x.Meets where
  decided := by
    intro σ source s words _
    refine ⟨.invalidFixture (Error.invalidFixture x.name reason).message, ?_,
      fun hsafe => absurd (hexpected.symm.trans hsafe) (by decide), fun _ => ⟨_, rfl⟩⟩
    intro limit
    simp only [check, Fixture.run, hbody]
  silent := by
    intro _ σ μ source sink limit s m
    simp only [Fixture.run, hbody]
    exact ⟨_, rfl⟩
  reached := fun hreached => absurd (hexpected.symm.trans hreached) (by decide)

end Program

/-- Only the two programs that draw a word have to be looked at word by word. -/
theorem meets_of_mem_all : ∀ x ∈ all, x.Meets := by
  intro x hx
  simp only [all, List.mem_cons, List.not_mem_nil, or_false] at hx
  rcases hx with rfl | rfl | rfl | rfl | rfl | rfl | rfl | rfl | rfl
  · exact meets_of_reachable rfl multipleLoopsParity_eq rfl (fun _ => rfl) ⟨_, rfl⟩
  · exact meets_of_safe rfl countdownWithCompanion_eq rfl fun _ => rfl
  · exact meets_of_safe rfl overflowingOddParity_eq rfl fun _ => rfl
  · exact meets_of_reachable rfl transformedEvenParity_eq rfl (fun _ => rfl) ⟨_, rfl⟩
  · exact meets_of_reachable rfl nondetBoundSaturation_eq rfl
      (fst_outcome_draw_ite (fun _ => rfl) fun _ => rfl) ⟨_, rfl⟩
  · exact meets_of_reachable rfl nestedNondetLoop_eq rfl
      (fst_outcome_draw_ite (fun _ => rfl) fun _ => rfl) ⟨_, rfl⟩
  · exact meets_of_safe rfl whileBreak_eq rfl fun _ => rfl
  · exact meets_of_malformed rfl rfl
  · exact meets_of_malformed rfl rfl

end Fixture
end VerifierBench
