import VerifierBench.Proofs.Check.Answer
import VerifierBench.Proofs.Report.CheckResult
import VerifierBench.Proofs.Tree.Attempts

/-! The result of a response against its details. The result is read off the records that the sink kept,
the details are read off the report and the tree; the books of the campaign tie them together. -/
namespace VerifierBench

/-- The result and the summary of a campaign over a tree say the same. -/
structure CampaignSummary.Agrees (s : CampaignSummary) (t : DecisionTree) (result : CheckResult) :
    Prop where
  holds_iff : result = .holds ↔ s.violations = 0
  violated : s.violations ≠ 0 →
    ∃ records, result = .violated records ∧ records.length = s.violations
  isSome_iff : s.firstCounterexample.isSome = true ↔ 0 < s.violations
  first_wrong : ∀ v, s.firstCounterexample = some v → ¬ v.HasExtrema (t.select v).result
  hits_sum : (s.coverage.map LeafCoverage.hits).sum = s.cases
  length_leaves : s.coverage.length + s.uncovered.length = 30
  /-- No leaf has two lines, and none is both covered and uncovered. -/
  nodup_leaves : (s.coverage.map LeafCoverage.leaf ++ s.uncovered).Nodup
  /-- The number of cases is a 64-bit word, and with it the other counts. -/
  fits : s.cases < UInt64.size

namespace CampaignSummary

lemma hits_ofReport (t : DecisionTree) (r : CampaignReport) :
    (ofReport t r).coverage.map LeafCoverage.hits = r.coverage.map Prod.snd := by
  simp [ofReport, Function.comp_def]

/-- The lines of a summary are those of the report, each leaf by its text. -/
lemma lines_ofReport (t : DecisionTree) (r : CampaignReport) :
    (ofReport t r).coverage.map LeafCoverage.leaf ++ (ofReport t r).uncovered =
      (r.coverage.map Prod.fst ++ r.uncovered t).map Leaf.text := by
  simp [ofReport, Function.comp_def]

end CampaignSummary

namespace DecisionTree
variable {t : DecisionTree} {seen : List Sextuple} {v : Sextuple}

lemma not_hasExtrema_of_violates (h : t.violates v = true) :
    ¬ v.HasExtrema (t.select v).result := by
  intro hextrema
  rw [violates, hextrema.postconditionHolds] at h
  cases h

/-- One record is kept for each violation. -/
lemma length_reachAll_recorder (t : DecisionTree) (seen : List Sextuple) :
    (t.reachAll .recorder seen #[]).toList.length = seen.countP t.violates := by
  rw [toList_reachAll_recorder, List.length_map, List.countP_eq_length_filter]

/-- The books of a campaign are kept for its records, too. -/
theorem SameShape.campaign_agrees (ht : t.SameShape derived) (hlen : seen.length < UInt64.size) :
    (CampaignSummary.ofReport t (t.recordAll seen .empty)).Agrees t
      (t.campaignResponse seen).result := by
  have hnodup := ht.intact.nodup_leaves
  have hreport := ((CampaignReport.accounts_empty t).recordAll seen).describes hnodup hlen
  rw [List.nil_append] at hreport
  -- From here on the books count, and not how the report came about.
  generalize t.recordAll seen .empty = r at hreport
  have hrecords : (t.reachAll .recorder seen #[]).toList.length = r.violations :=
    (t.length_reachAll_recorder seen).trans hreport.violations_eq.symm
  have hlines := (CampaignSummary.lines_ofReport t r).symm ▸ hreport.partition.map Leaf.text
  refine ⟨?_, ?_, ?_, ?_, ?_, ?_, ?_, hreport.fits.1⟩
  · refine CheckResult.ofRecords_eq_holds_iff.trans ?_
    rw [← List.length_eq_zero_iff, hrecords]
    rfl
  · intro hpos
    refine ⟨_, CheckResult.ofRecords_of_ne_nil fun hnil => hpos ?_, hrecords⟩
    rw [hnil, List.length_nil] at hrecords
    exact hrecords.symm
  · rw [Option.isSome_iff_ne_none, Nat.pos_iff_ne_zero]
    exact hreport.none_iff.not
  · intro v hv
    have hfind : seen.find? t.violates = some v := hreport.first_eq.symm.trans hv
    exact not_hasExtrema_of_violates (List.find?_some hfind)
  · rw [CampaignSummary.hits_ofReport]
    exact hreport.hits_sum
  · simpa [ht.intact.length_leaves] using hlines.length_eq
  · exact hlines.nodup_iff.mpr (hnodup.map fun k l => Leaf.text_inj.mp)

end DecisionTree

namespace CheckResponse
open CheckRequest

/-- The result of a response says what its details say, for each kind of request. -/
def Agrees (response : CheckResponse) : CheckRequest → Prop
  | .maxMin inputs fault => ∃ t, treeWith fault = .ok t ∧
      response.details = .singleCase (t.caseReport inputs) ∧
      (response.result = .holds ↔ (t.caseReport inputs).verdict = .holds) ∧
      ((t.caseReport inputs).verdict ≠ .holds → ∃ record, response.result = .violated [record])
  | .sweep _ _ fault _ | .random _ _ fault _ => ∃ t summary, treeWith fault = .ok t ∧
      response.details = .campaign summary ∧ summary.Agrees t response.result
  | .fixture name _ => ∃ outcome, response.details = .fixtures [outcome] ∧ outcome.name = name ∧
      response.result = outcome.result
  | .allFixtures => ∃ outcomes, response.details = .fixtures outcomes ∧
      outcomes.map FixtureOutcome.name = Fixture.all.map Fixture.name ∧
      (response.result = .holds ↔ ∀ o ∈ outcomes, o.asExpected = true) ∧
      ((∃ o ∈ outcomes, o.asExpected = false) → ∃ records, response.result = .violated records ∧
        records.map Record.location =
          ((Fixture.all.zip outcomes).filter fun c => !c.2.asExpected).map fun c => c.1.location.text)

end CheckResponse

namespace CheckRequest
variable {fault : Option Fault} {t : DecisionTree}

lemma sameShape_treeWith (h : treeWith fault = .ok t) : t.SameShape .derived := by
  cases fault with
  | none =>
    cases h
    exact .refl _
  | some f => exact DecisionTree.sameShape_inject h

lemma caseResponse_agrees {inputs : Sextuple} (h : treeWith fault = .ok t) :
    (t.caseResponse inputs).Agrees (.maxMin inputs fault) := by
  have hverdict := t.verdict_caseReport inputs
  have hrecords := t.toList_reachAll_recorder [inputs]
  refine ⟨t, h, rfl, ?_, ?_⟩
  · refine CheckResult.ofRecords_eq_holds_iff.trans ?_
    rw [hrecords, hverdict]
    cases hv : t.violates inputs <;> simp [hv]
  · intro hne
    have hv : t.violates inputs = true := by
      by_contra hholds
      exact hne (by rw [hverdict, if_neg hholds])
    refine ⟨⟨Oracle.location.text, (t.violation inputs).text⟩, ?_⟩
    rw [DecisionTree.caseResponse, hrecords, List.filter_cons_of_pos hv]
    rfl

lemma campaign_agrees (h : treeWith fault = .ok t) (failFast : Bool) {vs : List Sextuple}
    (hlen : vs.length < UInt64.size) : ∃ t' summary, treeWith fault = .ok t' ∧
      (t.campaignResponse (t.processed failFast vs)).details = .campaign summary ∧
      summary.Agrees t' (t.campaignResponse (t.processed failFast vs)).result :=
  ⟨t, _, h, rfl, (sameShape_treeWith h).campaign_agrees
    (Nat.lt_of_le_of_lt (t.processed_prefix failFast vs).length_le hlen)⟩

lemma allFixtures_agrees {checked : List (Fixture × FixtureOutcome)}
    (hfst : checked.map Prod.fst = Fixture.all)
    (hsnd : ∀ c ∈ checked, ∃ r, c.2 = .ofResult c.1 r) :
    CheckResponse.Agrees ⟨.ofRecords (mismatches checked), .fixtures (checked.map Prod.snd)⟩
      .allFixtures := by
  have hzip : checked = Fixture.all.zip (checked.map Prod.snd) := List.zip_of_prod hfst rfl
  have hnames : (checked.map Prod.snd).map FixtureOutcome.name = Fixture.all.map Fixture.name := by
    rw [← hfst, List.map_map, List.map_map]
    refine List.map_congr_left fun c hc => ?_
    obtain ⟨r, hr⟩ := hsnd c hc
    simp only [Function.comp_apply, hr, FixtureOutcome.ofResult]
  have hnil : mismatches checked = [] ↔ ∀ o ∈ checked.map Prod.snd, o.asExpected = true := by
    rw [mismatches, List.map_eq_nil_iff, List.filter_eq_nil_iff, List.forall_mem_map]
    simp
  refine ⟨checked.map Prod.snd, rfl, hnames, CheckResult.ofRecords_eq_holds_iff.trans hnil, ?_⟩
  rintro ⟨o, ho, hunexpected⟩
  refine ⟨mismatches checked, CheckResult.ofRecords_of_ne_nil fun h => ?_, ?_⟩
  · rw [hnil.mp h o ho] at hunexpected
    cases hunexpected
  · rw [← hzip, mismatches, List.map_map]
    rfl

/-- The request is for one fixture, and no verdict on a program is expected of it. -/
def NamesInvalid (r : CheckRequest) : Prop :=
  ∃ name inputs x, r = .fixture name inputs ∧ Fixture.find name = .ok x ∧ x.expectation = .invalid

/-- The result of a response agrees with its details, and it is made of records unless nothing could
run. -/
structure Answers (r : CheckRequest) (response : CheckResponse) : Prop where
  agrees : response.Agrees r
  recorded : ¬ r.NamesInvalid → ∃ records, response.result = .ofRecords records
  invalid : r.NamesInvalid → ∃ reason, response.result = .invalidFixture reason

section Answers
variable {r : CheckRequest} {response : CheckResponse} {records : List Record}

lemma answers_of_recorded (hr : ∀ name inputs, r ≠ .fixture name inputs)
    (hrecords : response.result = .ofRecords records) (hagrees : response.Agrees r) :
    r.Answers response where
  agrees := hagrees
  recorded := fun _ => ⟨records, hrecords⟩
  invalid := by
    rintro ⟨name, inputs, x, hfixture, -⟩
    exact absurd hfixture (hr name inputs)

lemma Answers.result_ne_violated_nil (h : r.Answers response) : response.result ≠ .violated [] := by
  by_cases hr : r.NamesInvalid
  · obtain ⟨reason, hresult⟩ := h.invalid hr
    rw [hresult]
    nofun
  · obtain ⟨records, hresult⟩ := h.recorded hr
    rw [hresult]
    exact CheckResult.ofRecords_ne_violated_nil records

lemma Answers.exitCode_eq_two_iff (h : r.Answers response) :
    response.result.exitCode = 2 ↔ r.NamesInvalid := by
  rw [CheckResult.exitCode_eq_two_iff]
  refine ⟨?_, h.invalid⟩
  rintro ⟨reason, hinvalid⟩
  by_contra hr
  obtain ⟨records, hresult⟩ := h.recorded hr
  exact CheckResult.ofRecords_ne_invalidFixture records reason (hresult.symm.trans hinvalid)

end Answers

/-- The result on a fixture is its verdict, and only the verdict on an invalid one has no records. -/
lemma answers_fixture {name : String} {inputs : Option (List Int32)} {limit : UInt64}
    {response : CheckResponse} (h : (fixture name inputs).respond limit = .ok response) :
    (fixture name inputs).Answers response := by
  rw [respond_fixture] at h
  cases hfind : Fixture.find name with
  | error cause =>
    rw [hfind] at h
    cases h
  | ok x =>
    obtain ⟨hx, hname⟩ := Fixture.find_eq_ok hfind
    obtain ⟨result, hcheck, hinvalid, hrecorded⟩ :=
      (Fixture.runs_of_mem_all x hx).exists_checkOn inputs limit
    rw [hfind, Except.bind, hcheck] at h
    cases h
    have hnames : (fixture name inputs).NamesInvalid ↔ x.expectation = .invalid := by
      constructor
      · rintro ⟨name', inputs', x', hrequest, hfind', hexpected⟩
        cases hrequest
        cases hfind.symm.trans hfind'
        exact hexpected
      · exact fun hexpected => ⟨name, inputs, x, rfl, hfind, hexpected⟩
    exact ⟨⟨_, rfl, hname, rfl⟩, fun h => hrecorded (hnames.not.mp h), fun h => hinvalid (hnames.mp h)⟩

/-- One case for each kind of request. -/
theorem answers_of_respond {r : CheckRequest} {limit : UInt64} {response : CheckResponse}
    (h : r.respond limit = .ok response) : r.Answers response := by
  cases r with
  | maxMin inputs fault =>
    rw [respond_maxMin] at h
    obtain ⟨t, ht, rfl⟩ := exists_of_map_eq_ok h
    exact answers_of_recorded nofun rfl (caseResponse_agrees ht)
  | sweep low high fault failFast =>
    by_cases hdomain : BadDomain low high
    · rw [respond_sweep_of_bad hdomain] at h
      cases h
    · rw [respond_sweep_of_good hdomain] at h
      obtain ⟨t, ht, rfl⟩ := exists_of_map_eq_ok h
      have hlen : (Supply.ofGrid (.between low high)).toList.length < UInt64.size := by
        rw [Supply.length_ofGrid_between, ← Nat.not_le]
        exact (not_or.mp (badDomain_iff.not.mp hdomain)).2
      exact answers_of_recorded nofun rfl (campaign_agrees ht failFast hlen)
  | random cases seed fault failFast =>
    obtain ⟨words, hwords⟩ := respond_random seed
    rw [hwords] at h
    obtain ⟨t, ht, rfl⟩ := exists_of_map_eq_ok h
    have hlen : (Sextuple.blocks words 0 cases.toNat).length < UInt64.size := by
      rw [Sextuple.length_blocks]
      exact cases.toNat_lt_size
    exact answers_of_recorded nofun rfl (campaign_agrees ht failFast hlen)
  | fixture name inputs => exact answers_fixture h
  | allFixtures =>
    obtain ⟨checked, hresponse, hfst, hsnd⟩ := respond_allFixtures limit
    cases hresponse.symm.trans h
    refine answers_of_recorded nofun rfl (allFixtures_agrees hfst fun c hc => ?_)
    obtain ⟨r, -, hr⟩ := hsnd c hc
    exact ⟨r, hr⟩

/-- The result of every response agrees with its details. It never claims a violation without a record,
and the exit status tells the three kinds of result apart; nothing could run exactly where a fixture
is asked for that is expected to be invalid. -/
theorem respond_agrees {r : CheckRequest} {limit : UInt64} {response : CheckResponse}
    (h : r.respond limit = .ok response) :
    response.Agrees r ∧ response.result ≠ .violated [] ∧
    (response.result.exitCode = 0 ↔ response.result = .holds) ∧
    (response.result.exitCode = 1 ↔ ∃ records, response.result = .violated records) ∧
    (response.result.exitCode = 2 ↔ ∃ name inputs x, r = .fixture name inputs ∧
      Fixture.find name = .ok x ∧ x.expectation = .invalid) := by
  have hanswers := answers_of_respond h
  exact ⟨hanswers.agrees, hanswers.result_ne_violated_nil, CheckResult.exitCode_eq_zero_iff,
    CheckResult.exitCode_eq_one_iff, hanswers.exitCode_eq_two_iff⟩

/-- The published fault is told by one record on its counterexample, and a sweep over the words from
zero to three is answered in agreement with its summary. -/
theorem respond_agrees_ko2 :
    (∃ response, (maxMin ⟨1, -3, 0, -2, -1, -2⟩ (some .ko2)).respond 0 = .ok response ∧
      response.Agrees (maxMin ⟨1, -3, 0, -2, -1, -2⟩ (some .ko2)) ∧
      response.result.exitCode = 1) ∧
    ∃ response t summary, (sweep 0 3 (some .ko2) true).respond 0 = .ok response ∧
      response.details = .campaign summary ∧ summary.Agrees t response.result := by
  refine ⟨?_, ?_⟩
  · obtain ⟨response, h⟩ : ∃ response,
        (maxMin ⟨1, -3, 0, -2, -1, -2⟩ (some .ko2)).respond 0 = .ok response := ⟨_, rfl⟩
    obtain ⟨hagrees, -, -, hone, -⟩ := respond_agrees h
    refine ⟨response, h, hagrees, hone.mpr ?_⟩
    cases h
    exact ⟨_, rfl⟩
  · obtain ⟨response, h⟩ : ∃ response, (sweep 0 3 (some .ko2) true).respond 0 = .ok response :=
      exists_respond_sweep_iff.mpr ⟨by decide, by decide, _, rfl⟩
    obtain ⟨t, summary, -, hdetails, hagrees⟩ := (respond_agrees h).1
    exact ⟨response, t, summary, h, hdetails, hagrees⟩

end CheckRequest
end VerifierBench
