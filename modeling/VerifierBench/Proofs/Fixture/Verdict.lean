import VerifierBench.Proofs.Fixture.Catalogue

/-! Fixtures always have a verdict. A malformed one says why it cannot run; a program of the catalogue
comes to its end on all words, so its verdict is read off what it reported. -/
namespace VerifierBench

namespace Fixture
open Script
variable {x : Fixture} {name : String}

/-- A fixture is malformed, as expected, or its program comes to its end on all words. -/
inductive Runs (x : Fixture) : Prop
  | malformed (reason : String) (hbody : x.body = .malformed reason)
      (hexpected : x.expectation = .invalid)
  | program (script : UInt64 → Script Unit) (body : Script Unit) (hbody : x.body = .program script)
      (hscript : ∀ limit, script limit = body)
      (hends : ∀ words, (body.outcome x.location words).1 = .ok ())
      (hexpected : x.expectation ≠ .invalid)

theorem runs_of_mem_all : ∀ x ∈ all, x.Runs := by
  intro x hx
  simp only [all, List.mem_cons, List.not_mem_nil, or_false] at hx
  rcases hx with rfl | rfl | rfl | rfl | rfl | rfl | rfl | rfl | rfl
  · exact .program _ _ rfl multipleLoopsParity_eq (fun _ => rfl) (by decide)
  · exact .program _ _ rfl countdownWithCompanion_eq (fun _ => rfl) (by decide)
  · exact .program _ _ rfl overflowingOddParity_eq (fun _ => rfl) (by decide)
  · exact .program _ _ rfl transformedEvenParity_eq (fun _ => rfl) (by decide)
  · exact .program _ _ rfl nondetBoundSaturation_eq
      (fst_outcome_draw_ite (fun _ => rfl) fun _ => rfl) (by decide)
  · exact .program _ _ rfl nestedNondetLoop_eq
      (fst_outcome_draw_ite (fun _ => rfl) fun _ => rfl) (by decide)
  · exact .program _ _ rfl whileBreak_eq (fun _ => rfl) (by decide)
  · exact .malformed _ rfl rfl
  · exact .malformed _ rfl rfl

/-- No words and no limit keep a fixture from its verdict. -/
theorem Runs.exists_checkOn (h : x.Runs) (inputs : Option (List Int32)) (limit : UInt64) :
    ∃ r, x.checkOn inputs limit = .ok r ∧
      (x.expectation = .invalid → ∃ reason, r = .invalidFixture reason) ∧
      (x.expectation ≠ .invalid → ∃ records, r = .ofRecords records) := by
  cases h with
  | malformed reason hbody hexpected =>
    refine ⟨.invalidFixture (Error.invalidFixture x.name reason).message, ?_, fun _ => ⟨_, rfl⟩,
      fun hne => absurd hexpected hne⟩
    simp only [checkOn, check, Fixture.run, hbody]
  | program script body hbody hscript hends hexpected =>
    exact ⟨_, check_eq hbody hscript (hends _) (Source.supplies_fixed (inputs.getD x.witness)) limit,
      fun hinvalid => absurd hinvalid hexpected, fun _ => ⟨_, rfl⟩⟩

lemma find_eq_ok (h : find name = .ok x) : x ∈ all ∧ x.name = name := by
  rw [find] at h
  split at h
  · next hfind =>
    cases h
    exact ⟨List.mem_of_find?_eq_some hfind, by simpa using List.find?_some hfind⟩
  · cases h

lemma find_eq_error_iff {cause : Error} : find name = .error cause ↔
    name ∉ all.map Fixture.name ∧ cause = .unknownFixture name := by
  have hnone : (all.find? fun x => x.name = name) = none ↔ name ∉ all.map Fixture.name := by
    simp only [List.find?_eq_none, decide_eq_true_eq, List.mem_map, not_exists, not_and]
  rw [← hnone, find]
  cases all.find? fun x => x.name = name with
  | none => simp [eq_comm]
  | some x => simp

end Fixture
end VerifierBench
