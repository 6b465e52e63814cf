import VerifierBench.Check.Service
import VerifierBench.Proofs.Fixture.Catalogue

/-! The request for all fixtures. It holds if every fixture has the verdict expected of it, and on
the fixtures of the catalogue it does. -/
namespace VerifierBench

namespace Fixture

/-- A fixture that meets its expectation has the expected verdict on its witness. -/
lemma Meets.checkOn_none {x : Fixture} (h : x.Meets) :
    ∃ r, (∀ limit, x.checkOn none limit = .ok r) ∧ x.isAsExpected r = true := by
  obtain ⟨r, hcheck, hsafe, hinvalid⟩ := h.decided (Source.supplies_fixed x.witness)
  refine ⟨r, hcheck, ?_⟩
  cases hexpected : x.expectation with
  | safe =>
    simp only [isAsExpected, hsafe hexpected, hexpected]
  | errorReachable =>
    obtain ⟨message, hreached⟩ := h.reached hexpected
    obtain rfl : r = .violated [⟨x.location.text, message⟩] :=
      Except.ok.inj ((hcheck 0).symm.trans (hreached 0))
    simp only [isAsExpected, hexpected]
  | invalid =>
    obtain ⟨reason, rfl⟩ := hinvalid hexpected
    simp only [isAsExpected, hexpected]

end Fixture

namespace CheckRequest

/-- One outcome for each fixture, in order, and the same ones for every limit. -/
lemma checkFixtures_eq {xs : List Fixture} (h : ∀ x ∈ xs, x.Meets) :
    ∃ checked, (∀ limit, checkFixtures limit xs = .ok checked) ∧
      (checked.map fun c => c.2.name) = xs.map Fixture.name ∧
      ∀ c ∈ checked, c.2.asExpected = true := by
  induction xs with
  | nil => exact ⟨[], fun _ => rfl, rfl, nofun⟩
  | cons x xs ih =>
    obtain ⟨hx, hxs⟩ := List.forall_mem_cons.mp h
    obtain ⟨r, hcheck, hexpected⟩ := hx.checkOn_none
    obtain ⟨checked, hrest, hnames, hall⟩ := ih hxs
    refine ⟨(x, .ofResult x r) :: checked, ?_, ?_, List.forall_mem_cons.mpr ⟨hexpected, hall⟩⟩
    · intro limit
      rw [checkFixtures, hcheck, hrest]
      rfl
    · rw [List.map_cons, List.map_cons, hnames]
      rfl

lemma mismatches_eq_nil {outcomes : List (Fixture × FixtureOutcome)}
    (h : ∀ c ∈ outcomes, c.2.asExpected = true) : mismatches outcomes = [] := by
  rw [mismatches, List.map_eq_nil_iff, List.filter_eq_nil_iff]
  intro c hc
  simp [h c hc]

end CheckRequest

/-- Every fixture of the catalogue has the verdict expected of it, on every source and for every
limit. So the request for all of them holds, and each outcome is as expected. -/
theorem Fixture.catalogue_verdicts :
    (∀ x ∈ all, x.Meets) ∧
    ∃ outcomes : List FixtureOutcome,
      (∀ limit, CheckRequest.allFixtures.respond limit = .ok ⟨.holds, .fixtures outcomes⟩) ∧
      outcomes.map FixtureOutcome.name = all.map Fixture.name ∧
      ∀ o ∈ outcomes, o.asExpected = true := by
  obtain ⟨checked, hchecked, hnames, hexpected⟩ := CheckRequest.checkFixtures_eq meets_of_mem_all
  refine ⟨meets_of_mem_all, checked.map Prod.snd, ?_, ?_, ?_⟩
  · intro limit
    rw [CheckRequest.respond, CheckRequest.perform, hchecked]
    simp only [Except.map, bind, Except.bind, pure, Except.pure,
      CheckRequest.mismatches_eq_nil hexpected]
    rfl
  · rw [List.map_map]
    exact hnames
  · intro o ho
    obtain ⟨c, hc, rfl⟩ := List.mem_map.mp ho
    exact hexpected c hc

end VerifierBench
