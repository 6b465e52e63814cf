import VerifierBench.Proofs.Campaign.Combined
import VerifierBench.Proofs.Fixture.Script

/-! Operations of the harness and the verdicts they come to. The verdicts are settled by trees,
sources and programs; the sink hears of them one after the other and has no say in them. -/
namespace VerifierBench
variable {σ μ α : Type}

/-- A verdict and the location it is reported at, which a violation names. -/
structure Judgement where
  location : Location
  verdict : Verdict
  named : ∀ v, verdict = .violated v → v.location = location.text

namespace Judgement

/-- The judgement of the oracle. -/
def ofOracle (v : Sextuple) (r : Extrema) : Judgement where
  location := Oracle.location
  verdict := Oracle.judge v r
  named := by
    intro w hw
    rw [Oracle.judge] at hw
    split at hw
    · cases hw
    · cases hw
      rfl

/-- The judgement of an assertion. -/
def ofScalar (l : Location) (variableName : String) (p : ScalarPredicate) (x : Int32) :
    Judgement where
  location := l
  verdict := p.judge l variableName x
  named := by
    intro w hw
    rw [ScalarPredicate.judge] at hw
    split at hw
    · cases hw
    · cases hw
      rfl

def ofCase (t : DecisionTree) (v : Sextuple) : Judgement := ofOracle v (t.select v).result

def isViolated (j : Judgement) : Bool := !j.verdict.isHolds

def report (sink : Sink μ) (j : Judgement) (m : μ) : μ := j.verdict.report j.location sink m

/-- Reports judgements one after another. -/
def reportAll (sink : Sink μ) (js : List Judgement) (m : μ) : μ :=
  js.foldl (fun m j => j.report sink m) m

@[simp] lemma reportAll_cons (sink : Sink μ) (j : Judgement) (js : List Judgement) (m : μ) :
    reportAll sink (j :: js) m = reportAll sink js (j.report sink m) := rfl

lemma reachAll_eq_reportAll (t : DecisionTree) (sink : Sink μ) (vs : List Sextuple) (m : μ) :
    t.reachAll sink vs m = reportAll sink (vs.map (ofCase t)) m := by
  rw [reportAll, List.foldl_map]
  rfl

@[simp] lemma isViolated_ofCase (t : DecisionTree) (v : Sextuple) :
    (ofCase t v).isViolated = t.violates v := by
  have h := t.isHolds_caseReport v
  rw [DecisionTree.caseReport] at h
  simp [isViolated, ofCase, ofOracle, h]

end Judgement

/-- What a script comes to on a source, and its judgements on the way. -/
def Script.judged (source : Nondet σ) (l : Location) :
    Script α → σ → Except Error α × List Judgement × σ
  | done a, s => (.ok a, [], s)
  | fail cause, s => (.error cause, [], s)
  | draw next, s =>
    match source.draw s with
    | .ok (x, s) => (next x).judged source l s
    | .error cause => (.error cause, [], s)
  | claim name p x next, s =>
    let (result, js, s) := next.judged source l s
    (result, .ofScalar l name p x :: js, s)

theorem Script.run_eq_judged (source : Nondet σ) (sink : Sink μ) (l : Location) (script : Script α)
    (s : σ) (m : μ) : script.run source sink l s m =
      ((script.judged source l s).1, (script.judged source l s).2.2,
        Judgement.reportAll sink (script.judged source l s).2.1 m) := by
  induction script generalizing s m with
  | done a => rfl
  | fail cause => rfl
  | draw next ih =>
    rw [run, judged]
    cases source.draw s with
    | error cause => rfl
    | ok drawn => exact ih drawn.1 drawn.2 m
  | claim name p x next ih =>
    rw [run, ih]
    rfl

namespace Nondet
variable {source : Nondet σ}

def NeverFails (source : Nondet σ) : Prop := ∀ s, ∃ drawn, source.draw s = .ok drawn

lemma NeverFails.exists_drawMany (h : source.NeverFails) (n : ℕ) (s : σ) :
    ∃ drawn, source.drawMany n s = .ok drawn := by
  induction n generalizing s with
  | zero => exact ⟨_, rfl⟩
  | succ n ih =>
    obtain ⟨⟨x, s₁⟩, hdraw⟩ := h s
    obtain ⟨⟨xs, s₂⟩, hrest⟩ := ih s₁
    refine ⟨(x :: xs, s₂), ?_⟩
    simp only [drawMany, hdraw, hrest, bind, Except.bind]
    rfl

lemma NeverFails.exists_drawSextuple (h : source.NeverFails) (s : σ) :
    ∃ drawn, source.drawSextuple s = .ok drawn := by
  obtain ⟨drawn, hdrawn⟩ := h.exists_drawMany (0 + 6) s
  rw [drawMany_add_six] at hdrawn
  obtain ⟨first, hfirst, -⟩ := exists_of_bind_eq_ok hdrawn
  exact ⟨first, hfirst⟩

end Nondet

/-- What can be asked of the harness, with a sink to report to. -/
inductive Operation (σ : Type)
  | runOnce (t : DecisionTree) (source : Nondet σ)
  | check (t : DecisionTree) (v : Sextuple)
  | sweep (t : DecisionTree) (failFast : Bool) (supply : Supply)
  | campaign (t : DecisionTree) (source : Nondet σ) (failFast : Bool) (cases : UInt64)
  | oracle (v : Sextuple) (r : Extrema)
  | assertScalar (l : Location) (variableName : String) (p : ScalarPredicate) (x : Int32)
  | fixture (x : Fixture) (source : Nondet σ) (limit : UInt64)

/-- What an operation gives back. -/
inductive Answer
  | verdict (v : Verdict)
  | report (r : CampaignReport)
  | ended (result : Except Error Unit)

/-- The answer agrees with the judgements the operation came to. -/
def Answer.Tells (a : Answer) (js : List Judgement) : Prop :=
  match a with
  | verdict v => js.map Judgement.verdict = [v]
  | report r => r.cases = js.length ∧ r.violations = js.countP Judgement.isViolated
  | ended _ => True

namespace Operation

/-- Carries an operation out. Only a draw that fails leaves it without an answer. -/
def run (op : Operation σ) (sink : Sink μ) (s : σ) (m : μ) : Except Error (Answer × σ × μ) :=
  match op with
  | runOnce t source =>
    (t.runOnce source sink s m).map fun (report, s, m) => (.verdict report.verdict, s, m)
  | check t v =>
    let (report, m) := t.runOn sink v m
    .ok (.verdict report.verdict, s, m)
  | sweep t failFast supply =>
    let (report, m) := t.sweep sink failFast supply m
    .ok (.report report, s, m)
  | campaign t source failFast cases =>
    (t.campaign source sink failFast cases s m).map fun (report, s, m) => (.report report, s, m)
  | oracle v r =>
    let (verdict, m) := Oracle.check sink v r m
    .ok (.verdict verdict, s, m)
  | assertScalar l variableName p x =>
    let (verdict, m) := p.check sink l variableName x m
    .ok (.verdict verdict, s, m)
  | fixture x source limit =>
    let (result, s, m) := x.run source sink limit s m
    .ok (.ended result, s, m)

/-- The answer and the judgements of an operation, without a sink. -/
def judged (op : Operation σ) (s : σ) : Except Error (Answer × List Judgement × σ) :=
  match op with
  | runOnce t source => (source.drawSextuple s).map fun (v, s) =>
    (.verdict (t.caseReport v).verdict, [.ofCase t v], s)
  | check t v => .ok (.verdict (t.caseReport v).verdict, [.ofCase t v], s)
  | sweep t failFast supply =>
    let vs := t.processed failFast supply.toList
    .ok (.report (t.recordAll vs .empty), vs.map (.ofCase t), s)
  | campaign t source failFast cases =>
    (t.drawProcessed source failFast cases.toNat s).map fun (vs, s) =>
      (.report (t.recordAll vs .empty), vs.map (.ofCase t), s)
  | oracle v r => .ok (.verdict (Oracle.judge v r), [.ofOracle v r], s)
  | assertScalar l variableName p x =>
    .ok (.verdict (p.judge l variableName x), [.ofScalar l variableName p x], s)
  | fixture x source limit =>
    match x.body with
    | .program script =>
      let (result, js, s) := (script limit).judged source x.location s
      .ok (.ended result, js, s)
    | .malformed reason => .ok (.ended (.error (.invalidFixture x.name reason)), [], s)

/-- An operation answers and goes on as without a sink, and reports its judgements to the sink in
order. -/
theorem run_eq_map (op : Operation σ) (sink : Sink μ) (s : σ) (m : μ) :
    op.run sink s m = (op.judged s).map fun (a, js, s) =>
      (a, s, Judgement.reportAll sink js m) := by
  cases op with
  | runOnce t source =>
    rw [run, judged, t.runOnce_eq_map]
    cases source.drawSextuple s <;> rfl
  | check t v => rfl
  | sweep t failFast supply =>
    rw [run, judged, DecisionTree.sweep, t.sweepFrom_eq, Judgement.reachAll_eq_reportAll]
    rfl
  | campaign t source failFast cases =>
    rw [run, judged, t.campaign_eq_map]
    cases t.drawProcessed source failFast cases.toNat s with
    | error cause => rfl
    | ok drawn =>
      simp only [Except.map, Judgement.reachAll_eq_reportAll]
  | oracle v r => rfl
  | assertScalar l variableName p x => rfl
  | fixture x source limit =>
    rw [run, judged, Fixture.run]
    cases x.body with
    | program script =>
      simp only [Script.run_eq_judged]
      rfl
    | malformed reason => rfl

lemma tells_recordAll (t : DecisionTree) (vs : List Sextuple) :
    (Answer.report (t.recordAll vs .empty)).Tells (vs.map (.ofCase t)) := by
  have haccounts := t.accounts_recordAll vs
  refine ⟨?_, ?_⟩
  · rw [haccounts.cases_eq, List.length_map]
  · rw [haccounts.violations_eq, List.countP_map]
    congr 1
    funext v
    exact (Judgement.isViolated_ofCase t v).symm

/-- The verdict or the counts given back are those of the judgements. -/
theorem tells_of_judged {op : Operation σ} {s s' : σ} {a : Answer} {js : List Judgement}
    (h : op.judged s = .ok (a, js, s')) : a.Tells js := by
  cases op with
  | runOnce t source =>
    obtain ⟨drawn, -, hresult⟩ := exists_of_map_eq_ok h
    cases hresult
    rfl
  | check t v =>
    cases h
    rfl
  | sweep t failFast supply =>
    cases h
    exact tells_recordAll t _
  | campaign t source failFast cases =>
    obtain ⟨drawn, -, hresult⟩ := exists_of_map_eq_ok h
    cases hresult
    exact tells_recordAll t drawn.1
  | oracle v r =>
    cases h
    rfl
  | assertScalar l variableName p x =>
    cases h
    rfl
  | fixture x source limit =>
    rw [judged] at h
    split at h
    · cases h
      trivial
    · cases h
      trivial

/-- The source an operation draws from. -/
def source? : Operation σ → Option (Nondet σ)
  | runOnce _ source => some source
  | campaign _ source _ _ => some source
  | fixture _ source _ => some source
  | _ => none

/-- If no draw fails, there is an answer. -/
theorem exists_judged {op : Operation σ} (h : ∀ source ∈ op.source?, source.NeverFails) (s : σ) :
    ∃ a js s', op.judged s = .ok (a, js, s') := by
  cases op with
  | runOnce t source =>
    obtain ⟨drawn, hdrawn⟩ := (h source rfl).exists_drawSextuple s
    rw [judged, hdrawn]
    exact ⟨_, _, _, rfl⟩
  | campaign t source failFast cases =>
    obtain ⟨vs, s', hdrawn⟩ := t.exists_drawProcessed failFast
      ((h source rfl).exists_drawMany (6 * cases.toNat) s)
    rw [judged, hdrawn]
    exact ⟨_, _, _, rfl⟩
  | fixture x source limit =>
    rw [judged]
    split <;> exact ⟨_, _, _, rfl⟩
  | _ => exact ⟨_, _, _, rfl⟩

end Operation
end VerifierBench
