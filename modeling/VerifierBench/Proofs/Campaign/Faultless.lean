import Mathlib.Data.Nat.Notation
import VerifierBench.Proofs.Campaign.Sweep
import VerifierBench.Proofs.Tree.Extrema

/-! Trees that answer every sextuple correctly, the derived tree among them: no sweep and no campaign
over such a tree reports anything, and the sink is left alone. -/
namespace VerifierBench

/-- Nothing was reported so far. -/
def CampaignReport.IsClean (r : CampaignReport) : Prop :=
  r.violations = 0 ∧ r.firstCounterexample = none

lemma CampaignReport.IsClean.record {r : CampaignReport} (h : r.IsClean) {c : CaseReport}
    (hc : c.verdict = .holds) : (r.record c).IsClean := by
  simpa [IsClean, CampaignReport.record, hc, Verdict.isHolds] using h

namespace Nondet
variable {σ : Type} {source : Nondet σ} {cause : Error}

lemma draw_bind_error {α : Type} {s : σ} {g : Int32 × σ → Except Error α}
    (h : (source.draw s >>= g) = .error cause) :
    (∃ s', source.draw s' = .error cause) ∨ ∃ drawn, g drawn = .error cause := by
  cases hdraw : source.draw s with
  | error e =>
    rw [hdraw] at h
    cases h
    exact .inl ⟨s, hdraw⟩
  | ok drawn =>
    rw [hdraw] at h
    exact .inr ⟨drawn, h⟩

/-- A sextuple is only refused by the source it is drawn from. -/
lemma drawSextuple_error {s : σ} (h : source.drawSextuple s = .error cause) :
    ∃ s', source.draw s' = .error cause := by
  unfold drawSextuple at h
  rcases draw_bind_error h with h | ⟨a, h⟩
  · exact h
  rcases draw_bind_error h with h | ⟨b, h⟩
  · exact h
  rcases draw_bind_error h with h | ⟨c, h⟩
  · exact h
  rcases draw_bind_error h with h | ⟨d, h⟩
  · exact h
  rcases draw_bind_error h with h | ⟨e, h⟩
  · exact h
  rcases draw_bind_error h with h | ⟨f, h⟩
  · exact h
  · cases h

end Nondet

namespace DecisionTree
variable {μ σ : Type}

/-- No sextuple violates the postcondition. -/
def Faultless (t : DecisionTree) : Prop := ∀ v, t.violates v = false

lemma Faultless.verdict_eq {t : DecisionTree} (ht : t.Faultless) (v : Sextuple) :
    (t.caseReport v).verdict = .holds :=
  (Oracle.judge_eq_holds_iff _ _).mpr ((t.violates_eq_false_iff v).mp (ht v))

lemma Faultless.runOn_eq {t : DecisionTree} (ht : t.Faultless) (sink : Sink μ) (v : Sextuple)
    (m : μ) : t.runOn sink v m = (t.caseReport v, m) := by
  have hrun : t.runOn sink v m =
      (t.caseReport v, (t.caseReport v).verdict.report Oracle.location sink m) := rfl
  rw [hrun, ht.verdict_eq, Verdict.report_holds]

theorem Faultless.sweepFrom_clean {t : DecisionTree} (ht : t.Faultless) (sink : Sink μ)
    (failFast : Bool) (supply : Supply) {r : CampaignReport} (hr : r.IsClean) (m : μ) :
    ∃ r', t.sweepFrom sink failFast supply r m = (r', m) ∧ r'.IsClean ∧
      r'.cases = r.cases + supply.toList.length := by
  induction supply generalizing r with
  | done => exact ⟨r, rfl, hr, rfl⟩
  | more v rest ih =>
    obtain ⟨r', hsweep, hclean, hcases⟩ := ih () (hr.record (ht.verdict_eq v))
    refine ⟨r', ?_, hclean, ?_⟩
    · simp only [sweepFrom, ht.runOn_eq, ht.verdict_eq, Verdict.isHolds, Bool.not_true,
        Bool.and_false, Bool.false_eq_true, if_false]
      exact hsweep
    · rw [hcases, CampaignReport.cases_record, Supply.toList, List.length_cons]
      omega

/-- A campaign only fails where its source does. -/
theorem Faultless.campaignFrom_clean {t : DecisionTree} (ht : t.Faultless) (source : Nondet σ)
    (sink : Sink μ) (failFast : Bool) (n : ℕ) {r : CampaignReport} (hr : r.IsClean) (s : σ)
    (m : μ) :
    (∃ r' s', t.campaignFrom source sink failFast n r s m = .ok (r', s', m) ∧ r'.IsClean ∧
        r'.cases = r.cases + n) ∨
      ∃ s' cause, source.draw s' = .error cause ∧
        t.campaignFrom source sink failFast n r s m = .error cause := by
  induction n generalizing r s with
  | zero => exact .inl ⟨r, s, rfl, hr, rfl⟩
  | succ n ih =>
    cases hdraw : source.drawSextuple s with
    | error cause =>
      obtain ⟨s', hs'⟩ := Nondet.drawSextuple_error hdraw
      refine .inr ⟨s', cause, hs', ?_⟩
      have hrun : t.runOnce source sink s m = .error cause := by
        rw [runOnce, hdraw]
        rfl
      simp only [campaignFrom, hrun]
    | ok drawn =>
      obtain ⟨v, s'⟩ := drawn
      have hrun : t.runOnce source sink s m = .ok (t.caseReport v, s', m) := by
        rw [runOnce, hdraw]
        simp only [bind, Except.bind, ht.runOn_eq]
        rfl
      have hnext := ih (hr.record (ht.verdict_eq v)) s'
      simp only [campaignFrom, hrun, ht.verdict_eq, Verdict.isHolds, Bool.not_true,
        Bool.and_false, Bool.false_eq_true, if_false]
      rwa [CampaignReport.cases_record, Nat.add_assoc, Nat.add_comm 1 n] at hnext

theorem faultless_derived : derived.Faultless := by
  intro v
  have h := isExtremal_derived v
  exact (derived.violates_eq_false_iff v).mpr fun p => ⟨h.le_max p, h.min_le p⟩

/-- The derived tree finds the last greatest word and the last least of the other five, the oracle
is silent about its answers, and so are all sweeps and campaigns over it. -/
theorem derived_exact :
    (∀ v, (derived.select v).IsExtremal v ∧ v.extrema = (derived.select v).result ∧
      ∀ (μ : Type) (sink : Sink μ) m,
        Oracle.check sink v (derived.select v).result m = (.holds, m)) ∧
    (∀ (μ : Type) (sink : Sink μ) failFast supply m, ∃ r,
      derived.sweep sink failFast supply m = (r, m) ∧ r.IsClean ∧
        r.cases = supply.toList.length) ∧
    ∀ (μ σ : Type) (source : Nondet σ) (sink : Sink μ) failFast (cases : UInt64) s m,
      (∃ r s', derived.campaign source sink failFast cases s m = .ok (r, s', m) ∧ r.IsClean ∧
          r.cases = cases.toNat) ∨
        ∃ s' cause, source.draw s' = .error cause ∧
          derived.campaign source sink failFast cases s m = .error cause := by
  have hempty : CampaignReport.empty.IsClean := ⟨rfl, rfl⟩
  refine ⟨fun v => ⟨isExtremal_derived v, rfl, ?_⟩, ?_, ?_⟩
  · intro μ sink m
    have hjudge : Oracle.judge v (derived.select v).result = .holds :=
      faultless_derived.verdict_eq v
    rw [Oracle.check, hjudge, Verdict.report_holds]
  · intro μ sink failFast supply m
    simpa [sweep, CampaignReport.empty] using
      faultless_derived.sweepFrom_clean sink failFast supply hempty m
  · intro μ σ source sink failFast cases s m
    simpa [campaign, CampaignReport.empty] using
      faultless_derived.campaignFrom_clean source sink failFast cases.toNat hempty s m

end DecisionTree
end VerifierBench
