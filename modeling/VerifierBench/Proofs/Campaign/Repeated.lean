import Mathlib.Data.Nat.Notation
import VerifierBench.Proofs.Campaign.Sweep

/-! Campaigns as repeated single runs. Which words a campaign draws and what it finds is settled
without its sink; report, source and sink follow from that. -/
namespace VerifierBench
variable {σ μ ι : Type}

namespace Nondet

/-- The words of a sextuple are drawn one after the other, in the order of the positions. -/
lemma drawMany_add_six (source : Nondet σ) (n : ℕ) (s : σ) : source.drawMany (n + 6) s = do
    let (v, s) ← source.drawSextuple s
    let (words, s) ← source.drawMany n s
    return (v.toList ++ words, s) := by
  simp only [drawMany, drawSextuple, bind_assoc, pure_bind]
  rfl

/-- Asked for a sextuple, draws one, until `n` have been asked for. -/
def pull (source : Nondet σ) : ℕ × σ → Except Error (Option (Sextuple × ℕ × σ))
  | (0, _) => .ok none
  | (n + 1, s) => (source.drawSextuple s).map fun (v, s) => some (v, n, s)

end Nondet

/-- The report on some cases, in order. -/
def CampaignReport.ofCases (reports : List CaseReport) : CampaignReport :=
  reports.foldl CampaignReport.record .empty

namespace DecisionTree
variable {t : DecisionTree} {source : Nondet σ} {sink : Sink μ} {failFast : Bool} {s s' : σ} {m : μ}

/-- Runs the tree once and once more, at most `n` times. Stops behind a violation if it should fail
fast. -/
def runRepeatedly (t : DecisionTree) (source : Nondet σ) (sink : Sink μ) (failFast : Bool) :
    ℕ → σ → μ → Except Error (List CaseReport × σ × μ)
  | 0, s, m => .ok ([], s, m)
  | n + 1, s, m =>
    match t.runOnce source sink s m with
    | .error cause => .error cause
    | .ok (report, s, m) =>
      if failFast && !report.verdict.isHolds then .ok ([report], s, m)
      else (t.runRepeatedly source sink failFast n s m).map fun (reports, s, m) =>
        (report :: reports, s, m)

/-- The sextuples of repeated runs: those drawn, up to the first violation if it should fail fast.
-/
def drawProcessed (t : DecisionTree) (source : Nondet σ) (failFast : Bool) :
    ℕ → σ → Except Error (List Sextuple × σ)
  | 0, s => .ok ([], s)
  | n + 1, s =>
    match source.drawSextuple s with
    | .error cause => .error cause
    | .ok (v, s) =>
      if failFast && t.violates v then .ok ([v], s)
      else (t.drawProcessed source failFast n s).map fun (vs, s) => (v :: vs, s)

/-- The loop over an iterator: it asks for a sextuple, runs the tree on it, enters the case in the
report, and leaves behind a violation if it should fail fast. -/
inductive Loops (t : DecisionTree) (sink : Sink μ) (failFast : Bool)
    (next : ι → Except Error (Option (Sextuple × ι))) :
    ι → CampaignReport → μ → Except Error (CampaignReport × ι × μ) → Prop
  | done {i r m} (h : next i = .ok none) : Loops t sink failFast next i r m (.ok (r, i, m))
  | fail {i r m cause} (h : next i = .error cause) :
      Loops t sink failFast next i r m (.error cause)
  | leave {i j r m v report m'} (h : next i = .ok (some (v, j)))
      (hrun : t.runOn sink v m = (report, m'))
      (hstop : (failFast && !report.verdict.isHolds) = true) :
      Loops t sink failFast next i r m (.ok (r.record report, j, m'))
  | again {i j r m v report m' result} (h : next i = .ok (some (v, j)))
      (hrun : t.runOn sink v m = (report, m'))
      (hgo : (failFast && !report.verdict.isHolds) = false)
      (rest : Loops t sink failFast next j (r.record report) m' result) :
      Loops t sink failFast next i r m result

lemma runOn_eq (t : DecisionTree) (sink : Sink μ) (v : Sextuple) (m : μ) : t.runOn sink v m =
    (t.caseReport v, (t.caseReport v).verdict.report Oracle.location sink m) := rfl

lemma runOnce_eq_map (t : DecisionTree) (source : Nondet σ) (sink : Sink μ) (s : σ) (m : μ) :
    t.runOnce source sink s m = (source.drawSextuple s).map fun (v, s) =>
      (t.caseReport v, s, (t.caseReport v).verdict.report Oracle.location sink m) := by
  rw [runOnce]
  cases source.drawSextuple s <;> rfl

/-- A campaign enters the reports of repeated runs one after the other. -/
theorem campaignFrom_eq_map (t : DecisionTree) (source : Nondet σ) (sink : Sink μ) (failFast : Bool)
    (n : ℕ) (r : CampaignReport) (s : σ) (m : μ) :
    t.campaignFrom source sink failFast n r s m =
      (t.runRepeatedly source sink failFast n s m).map fun (reports, s, m) =>
        (reports.foldl CampaignReport.record r, s, m) := by
  induction n generalizing r s m with
  | zero => rfl
  | succ n ih =>
    rw [campaignFrom, runRepeatedly]
    cases t.runOnce source sink s m with
    | error cause => rfl
    | ok ran =>
      obtain ⟨report, s, m⟩ := ran
      dsimp only
      split
      · rfl
      · rw [ih]
        cases t.runRepeatedly source sink failFast n s m <;> rfl

/-- The sink hears of the cases in order, and nothing depends on it. -/
theorem runRepeatedly_eq_map (t : DecisionTree) (source : Nondet σ) (sink : Sink μ) (failFast : Bool)
    (n : ℕ) (s : σ) (m : μ) :
    t.runRepeatedly source sink failFast n s m =
      (t.drawProcessed source failFast n s).map fun (vs, s) =>
        (vs.map t.caseReport, s, t.reachAll sink vs m) := by
  induction n generalizing s m with
  | zero => rfl
  | succ n ih =>
    rw [runRepeatedly, drawProcessed, runOnce_eq_map]
    cases source.drawSextuple s with
    | error cause => rfl
    | ok drawn =>
      obtain ⟨v, s⟩ := drawn
      simp only [Except.map, isHolds_caseReport, Bool.not_not]
      split
      · rfl
      · rw [ih]
        cases t.drawProcessed source failFast n s <;> rfl

lemma drawProcessed_eq_ok_of_succ {n : ℕ} {vs : List Sextuple}
    (h : t.drawProcessed source failFast (n + 1) s = .ok (vs, s')) :
    ∃ v s₁, source.drawSextuple s = .ok (v, s₁) ∧
      ((failFast && t.violates v) = true ∧ vs = [v] ∧ s' = s₁ ∨
        (failFast && t.violates v) = false ∧
          ∃ rest, t.drawProcessed source failFast n s₁ = .ok (rest, s') ∧ vs = v :: rest) := by
  rw [drawProcessed] at h
  cases hdraw : source.drawSextuple s with
  | error cause =>
    rw [hdraw] at h
    cases h
  | ok drawn =>
    obtain ⟨v, s₁⟩ := drawn
    rw [hdraw] at h
    dsimp only at h
    refine ⟨v, s₁, rfl, ?_⟩
    split at h
    · next hstop =>
      cases h
      exact .inl ⟨hstop, rfl, rfl⟩
    · next hgo =>
      obtain ⟨⟨rest, s₂⟩, hrest, hpair⟩ := exists_of_map_eq_ok h
      cases hpair
      exact .inr ⟨Bool.eq_false_iff.mpr hgo, rest, hrest, rfl⟩

/-- The sextuples are consecutive blocks of six words, and the source is left behind the last one.
-/
theorem drawMany_of_drawProcessed {n : ℕ} {vs : List Sextuple}
    (h : t.drawProcessed source failFast n s = .ok (vs, s')) :
    source.drawMany (6 * vs.length) s = .ok (vs.flatMap Slots.toList, s') := by
  induction n generalizing s vs with
  | zero =>
    cases h
    rfl
  | succ n ih =>
    -- A run that stops has drawn its six words and no more; one that goes on draws the rest behind.
    obtain ⟨v, s₁, hdraw, ⟨-, rfl, rfl⟩ | ⟨-, rest, hrest, rfl⟩⟩ := drawProcessed_eq_ok_of_succ h
    · have hsix := source.drawMany_add_six 0 s
      rw [hdraw] at hsix
      exact hsix
    · have hsix := source.drawMany_add_six (6 * rest.length) s
      rw [hdraw] at hsix
      rw [List.length_cons, Nat.mul_succ, hsix]
      simp only [bind, Except.bind, ih hrest]
      rfl

lemma length_drawProcessed_le {n : ℕ} {vs : List Sextuple}
    (h : t.drawProcessed source failFast n s = .ok (vs, s')) : vs.length ≤ n := by
  induction n generalizing s vs with
  | zero =>
    cases h
    exact Nat.le_refl 0
  | succ n ih =>
    obtain ⟨v, s₁, -, ⟨-, rfl, -⟩ | ⟨-, rest, hrest, rfl⟩⟩ := drawProcessed_eq_ok_of_succ h
    · exact Nat.succ_le_succ (Nat.zero_le n)
    · exact Nat.succ_le_succ (ih hrest)

lemma length_drawProcessed_eq {n : ℕ} {vs : List Sextuple}
    (h : t.drawProcessed source false n s = .ok (vs, s')) : vs.length = n := by
  induction n generalizing s vs with
  | zero =>
    cases h
    rfl
  | succ n ih =>
    obtain ⟨v, s₁, -, ⟨hstop, -⟩ | ⟨-, rest, hrest, rfl⟩⟩ := drawProcessed_eq_ok_of_succ h
    · exact absurd hstop Bool.false_ne_true
    · rw [List.length_cons, ih hrest]

/-- If the source gives all words that could be asked for, the run is not cut short by it. -/
theorem exists_drawProcessed (t : DecisionTree) (failFast : Bool) {n : ℕ}
    (h : ∃ drawn, source.drawMany (6 * n) s = .ok drawn) :
    ∃ vs s', t.drawProcessed source failFast n s = .ok (vs, s') := by
  induction n generalizing s with
  | zero => exact ⟨[], s, rfl⟩
  | succ n ih =>
    obtain ⟨drawn, hdrawn⟩ := h
    rw [Nat.mul_succ, Nondet.drawMany_add_six] at hdrawn
    obtain ⟨⟨v, s₁⟩, hdraw, hlater⟩ := exists_of_bind_eq_ok hdrawn
    obtain ⟨many, hmany, -⟩ := exists_of_bind_eq_ok hlater
    rw [drawProcessed, hdraw]
    dsimp only
    split
    · exact ⟨_, _, rfl⟩
    · obtain ⟨vs, s', hrest⟩ := ih ⟨many, hmany⟩
      rw [hrest]
      exact ⟨_, _, rfl⟩

/-- Without failing fast, the sextuples can be drawn in two parts. -/
theorem drawProcessed_add (t : DecisionTree) (source : Nondet σ) (a b : ℕ) (s : σ) :
    t.drawProcessed source false (a + b) s = do
      let (first, s) ← t.drawProcessed source false a s
      let (second, s) ← t.drawProcessed source false b s
      return (first ++ second, s) := by
  induction a generalizing s with
  | zero =>
    rw [Nat.zero_add]
    change _ = (t.drawProcessed source false b s >>= pure)
    exact (bind_pure _).symm
  | succ a ih =>
    rw [Nat.add_right_comm, drawProcessed, drawProcessed]
    cases source.drawSextuple s with
    | error cause => rfl
    | ok drawn =>
      obtain ⟨v, s⟩ := drawn
      simp only [Bool.false_and, Bool.false_eq_true, if_false, ih]
      cases t.drawProcessed source false a s with
      | error cause => rfl
      | ok first =>
        obtain ⟨first, s⟩ := first
        simp only [bind, Except.bind, Except.map]
        cases t.drawProcessed source false b s <;> rfl

section Loop
variable {next : ι → Except Error (Option (Sextuple × ι))} {i : ι} {r : CampaignReport}
  {result result' : Except Error (CampaignReport × ι × μ)}

/-- The loop is deterministic. -/
theorem Loops.unique (h : t.Loops sink failFast next i r m result)
    (h' : t.Loops sink failFast next i r m result') : result' = result := by
  induction h with
  | done h =>
    cases h' with
    | done => rfl
    | fail g => cases h.symm.trans g
    | leave g => cases h.symm.trans g
    | again g => cases h.symm.trans g
  | fail h =>
    cases h' with
    | done g => cases h.symm.trans g
    | fail g =>
      cases h.symm.trans g
      rfl
    | leave g => cases h.symm.trans g
    | again g => cases h.symm.trans g
  | leave h hrun hstop =>
    cases h' with
    | done g => cases h.symm.trans g
    | fail g => cases h.symm.trans g
    | leave g grun =>
      cases h.symm.trans g
      cases hrun.symm.trans grun
      rfl
    | again g grun ggo =>
      cases h.symm.trans g
      cases hrun.symm.trans grun
      exact absurd (hstop.symm.trans ggo) (by decide)
  | again h hrun hgo _ ih =>
    cases h' with
    | done g => cases h.symm.trans g
    | fail g => cases h.symm.trans g
    | leave g grun gstop =>
      cases h.symm.trans g
      cases hrun.symm.trans grun
      exact absurd (gstop.symm.trans hgo) (by decide)
    | again g grun _ rest =>
      cases h.symm.trans g
      cases hrun.symm.trans grun
      exact ih rest

end Loop

/-- The loop over sextuples drawn when asked for ends as the campaign does, and with the same
source: no sextuple is drawn that is not looked at. -/
theorem exists_loops_pull (t : DecisionTree) (source : Nondet σ) (sink : Sink μ) (failFast : Bool)
    (n : ℕ) (r : CampaignReport) (s : σ) (m : μ) :
    ∃ result, t.Loops sink failFast source.pull (n, s) r m result ∧
      t.campaignFrom source sink failFast n r s m = result.map fun (r, (_, s), m) => (r, s, m) := by
  induction n generalizing r s m with
  | zero => exact ⟨_, .done rfl, rfl⟩
  | succ n ih =>
    rw [campaignFrom, runOnce_eq_map]
    cases hdraw : source.drawSextuple s with
    | error cause =>
      refine ⟨.error cause, .fail ?_, rfl⟩
      rw [Nondet.pull, hdraw]
      rfl
    | ok drawn =>
      obtain ⟨v, s'⟩ := drawn
      have hnext : source.pull (n + 1, s) = .ok (some (v, n, s')) := by
        rw [Nondet.pull, hdraw]
        rfl
      simp only [Except.map]
      split
      · next hstop => exact ⟨_, .leave hnext (t.runOn_eq sink v m) hstop, rfl⟩
      · next hgo =>
        obtain ⟨result, hloops, hresult⟩ := ih (r.record (t.caseReport v)) s'
          ((t.caseReport v).verdict.report Oracle.location sink m)
        exact ⟨result, .again hnext (t.runOn_eq sink v m) (Bool.eq_false_iff.mpr hgo) hloops,
          hresult⟩

end DecisionTree
end VerifierBench
