import VerifierBench.Proofs.Campaign.Drawn
import VerifierBench.Proofs.Check.GridSweep
import VerifierBench.Proofs.Fixture.Verdict

/-! The answer to each kind of request, without sinks, sources and loops. A sweep and a random
campaign are answered alike, from the sextuples that were looked at. -/
namespace VerifierBench

namespace DecisionTree

lemma toList_reachAll_recorder (t : DecisionTree) (vs : List Sextuple) :
    (t.reachAll .recorder vs #[]).toList =
      (vs.filter t.violates).map fun v => ⟨Oracle.location.text, (t.violation v).text⟩ := by
  have hreport := Script.reportAll_recorder Oracle.location ((vs.filter t.violates).map t.violation) #[]
  rw [reachAll_eq]
  simpa [Script.reportAll, List.foldl_map, Function.comp_def] using hreport

/-- The response to a campaign that looked at some sextuples, in order. -/
def campaignResponse (t : DecisionTree) (seen : List Sextuple) : CheckResponse :=
  ⟨.ofRecords (t.reachAll .recorder seen #[]).toList,
    .campaign (.ofReport t (t.recordAll seen .empty))⟩

/-- The response to one run. -/
def caseResponse (t : DecisionTree) (v : Sextuple) : CheckResponse :=
  ⟨.ofRecords (t.reachAll .recorder [v] #[]).toList, .singleCase (t.caseReport v)⟩

end DecisionTree

/-- The response on one fixture. -/
def Fixture.response (x : Fixture) (r : CheckResult) : CheckResponse :=
  ⟨r, .fixtures [.ofResult x r]⟩

namespace CheckRequest

/-- Logging beside recording changes nothing about the records. -/
theorem respond_maxMin (limit : UInt64) (inputs : Sextuple) (fault : Option Fault) :
    (maxMin inputs fault).respond limit = (treeWith fault).map fun t => t.caseResponse inputs := by
  rw [respond, perform]
  cases treeWith fault with
  | error e => rfl
  | ok t =>
    have hrecords : (t.runOn (.tee (.onFirst .recorder) (.onSecond .logger)) inputs (#[], #[])).2.1 =
        t.reachAll .recorder [inputs] #[] := by
      change ((t.caseReport inputs).verdict.report Oracle.location
        (.tee (.onFirst .recorder) (.onSecond .logger)) (#[], #[])).1 =
          (t.caseReport inputs).verdict.report Oracle.location .recorder #[]
      cases (t.caseReport inputs).verdict <;> rfl
    simp only [Except.map, DecisionTree.caseResponse, ← hrecords]
    rfl

/-- The domain of a sweep is refused: it is empty or has too many sextuples. -/
def BadDomain (low high : Int32) : Prop :=
  high < low ∨ 2 ^ 64 ≤ (high.toInt - low.toInt + 1) ^ 6

lemma badDomain_iff {low high : Int32} :
    BadDomain low high ↔ high < low ∨ UInt64.size ≤ (Grid.between low high).size := by
  rw [BadDomain]
  refine or_congr_right' fun hle => ?_
  have hwidth : ((Grid.between low high).width : ℤ) = high.toInt - low.toInt + 1 := by
    rw [Int32.not_lt, Int32.le_iff_toInt_le] at hle
    rw [Grid.width_between]
    omega
  rw [← hwidth]
  change (2 ^ 64 : ℤ) ≤ ((Grid.between low high).width : ℤ) ^ 6 ↔
    2 ^ 64 ≤ (Grid.between low high).width ^ 6
  norm_cast

theorem respond_sweep_of_bad {low high : Int32} (h : BadDomain low high) (limit : UInt64)
    (fault : Option Fault) (failFast : Bool) :
    (sweep low high fault failFast).respond limit = .error (.invalidDomain low high) := by
  rw [respond, perform_sweep, if_pos (badDomain_iff.mp h)]
  rfl

theorem respond_sweep_of_good {low high : Int32} (h : ¬ BadDomain low high) (limit : UInt64)
    (fault : Option Fault) (failFast : Bool) :
    (sweep low high fault failFast).respond limit = (treeWith fault).map fun t =>
      t.campaignResponse (t.processed failFast (Supply.ofGrid (.between low high)).toList) := by
  rw [respond, perform_sweep, if_neg (badDomain_iff.not.mp h)]
  cases treeWith fault with
  | error e => rfl
  | ok t =>
    simp only [Except.map, DecisionTree.sweep, DecisionTree.sweepFrom_eq]
    rfl

lemma unranged_randomSource (seed : UInt64) : (randomSource seed).Unranged := ⟨rfl, trivial⟩

/-- The words of a random campaign depend on its seed alone, and they never run out. -/
theorem respond_random (seed : UInt64) : ∃ words, ∀ limit cases fault failFast,
    (random cases seed fault failFast).respond limit = (treeWith fault).map fun t =>
      t.campaignResponse (t.processed failFast (Sextuple.blocks words 0 cases.toNat)) := by
  obtain ⟨words, hwords⟩ := (unranged_randomSource seed).exists_supplies
  refine ⟨words, fun limit cases fault failFast => ?_⟩
  rw [respond, perform]
  cases treeWith fault with
  | error e => rfl
  | ok t =>
    obtain ⟨s', hcampaign⟩ := t.campaign_eq hwords .recorder failFast cases #[]
    simp only [bind, Except.bind, hcampaign]
    rfl

theorem respond_fixture (limit : UInt64) (name : String) (inputs : Option (List Int32)) :
    (fixture name inputs).respond limit =
      (Fixture.find name).bind fun x => (x.checkOn inputs limit).map x.response := by
  rw [respond, perform]
  cases Fixture.find name with
  | error e => rfl
  | ok x =>
    simp only [bind, Except.bind]
    cases x.checkOn inputs limit <;> rfl

/-- Fixtures that run are all checked, in order. -/
lemma exists_checkFixtures {xs : List Fixture} (h : ∀ x ∈ xs, x.Runs) (limit : UInt64) :
    ∃ checked, checkFixtures limit xs = .ok checked ∧ checked.map Prod.fst = xs ∧
      ∀ c ∈ checked, ∃ r, c.1.checkOn none limit = .ok r ∧ c.2 = .ofResult c.1 r := by
  induction xs with
  | nil => exact ⟨[], rfl, rfl, nofun⟩
  | cons x xs ih =>
    obtain ⟨hx, hxs⟩ := List.forall_mem_cons.mp h
    obtain ⟨r, hcheck, -⟩ := hx.exists_checkOn none limit
    obtain ⟨checked, hrest, hfst, hall⟩ := ih hxs
    refine ⟨(x, .ofResult x r) :: checked, ?_, congrArg (x :: ·) hfst,
      List.forall_mem_cons.mpr ⟨⟨r, hcheck, rfl⟩, hall⟩⟩
    rw [checkFixtures, hcheck, hrest]
    rfl

theorem respond_allFixtures (limit : UInt64) : ∃ checked,
    allFixtures.respond limit =
      .ok ⟨.ofRecords (mismatches checked), .fixtures (checked.map Prod.snd)⟩ ∧
    checked.map Prod.fst = Fixture.all ∧
    ∀ c ∈ checked, ∃ r, c.1.checkOn none limit = .ok r ∧ c.2 = .ofResult c.1 r := by
  obtain ⟨checked, hchecked, hrest⟩ := exists_checkFixtures Fixture.runs_of_mem_all limit
  refine ⟨checked, ?_, hrest⟩
  rw [respond, perform, hchecked]
  rfl

end CheckRequest
end VerifierBench
