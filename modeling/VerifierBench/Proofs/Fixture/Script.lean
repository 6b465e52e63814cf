import VerifierBench.Fixture.Basic
import VerifierBench.Proofs.Loop.Trace
import VerifierBench.Proofs.Source.Stream

/-! What a script does on a stream of words. Source, sink and limit only carry it out: the outcome
and the violations follow from the words. -/
namespace VerifierBench

/-- The violation of a verdict, if there is one. -/
def Verdict.violations : Verdict → List Violation
  | holds => []
  | violated v => [v]

namespace Script
variable {α β σ μ : Type}

/-- The result of a script on a stream of words, and the violations on the way. -/
def outcome (l : Location) : Script α → (ℕ → Int32) → Except Error α × List Violation
  | done a, _ => (.ok a, [])
  | fail cause, _ => (.error cause, [])
  | draw next, words => (next (words 0)).outcome l fun n => words (n + 1)
  | claim name p x next, words =>
    let (r, vs) := next.outcome l words
    (r, (p.judge l name x).violations ++ vs)

/-- Reports violations one after another. -/
def reportAll (sink : Sink μ) (l : Location) (vs : List Violation) (m : μ) : μ :=
  vs.foldl (fun m v => sink.reach l v.text m) m

lemma reportAll_append (sink : Sink μ) (l : Location) (vs ws : List Violation) (m : μ) :
    reportAll sink l (vs ++ ws) m = reportAll sink l ws (reportAll sink l vs m) :=
  List.foldl_append

lemma reportAll_violations (sink : Sink μ) (l : Location) (verdict : Verdict) (m : μ) :
    reportAll sink l verdict.violations m = verdict.report l sink m := by
  cases verdict <;> rfl

/-- A recorder keeps one record for each violation. -/
lemma reportAll_recorder (l : Location) (vs : List Violation) (kept : Array Record) :
    (reportAll .recorder l vs kept).toList =
      kept.toList ++ vs.map fun v => ⟨l.text, v.text⟩ := by
  induction vs generalizing kept with
  | nil => simp [reportAll]
  | cons v vs ih =>
    have hstep : reportAll .recorder l (v :: vs) kept =
        reportAll .recorder l vs (kept.push ⟨l.text, v.text⟩) := rfl
    rw [hstep, ih, Array.toList_push, List.append_assoc]
    rfl

/-- A script sees nothing of its source but the words, and every violation goes to the sink. -/
theorem run_eq {source : Nondet σ} {s : σ} {words : ℕ → Int32} (h : source.Supplies s words)
    (sink : Sink μ) (l : Location) (script : Script α) (m : μ) :
    ∃ s', script.run source sink l s m = ((script.outcome l words).1, s',
      reportAll sink l (script.outcome l words).2 m) := by
  induction script generalizing s words m with
  | done a => exact ⟨s, rfl⟩
  | fail cause => exact ⟨s, rfl⟩
  | draw next ih =>
    obtain ⟨s', hdraw, hrest⟩ := h.next
    obtain ⟨s'', hrun⟩ := ih (words 0) hrest m
    refine ⟨s'', ?_⟩
    simp only [run, hdraw]
    exact hrun
  | claim name p x next ih =>
    obtain ⟨s', hrun⟩ := ih h (p.check sink l name x m).2
    refine ⟨s', hrun.trans ?_⟩
    simp only [outcome, reportAll_append, reportAll_violations]
    rfl

/-- Both ways to go on after a draw end alike. -/
lemma fst_outcome_draw_ite {l : Location} {p : Int32 → Prop} [DecidablePred p] {yes no : Script α}
    {r : Except Error α} (hyes : ∀ words, (yes.outcome l words).1 = r)
    (hno : ∀ words, (no.outcome l words).1 = r) (words : ℕ → Int32) :
    ((draw fun x => if p x then yes else no).outcome l words).1 = r := by
  rw [outcome]
  split
  · exact hyes _
  · exact hno _

@[simp] lemma done_bind (a : α) (g : α → Script β) : done a >>= g = g a := rfl

@[simp] lemma claim_bind (name : String) (p : ScalarPredicate) (x : Int32) (next : Script α)
    (g : α → Script β) : claim name p x next >>= g = claim name p x (next >>= g) := rfl

@[simp] lemma draw_bind (next : Int32 → Script α) (g : α → Script β) :
    draw next >>= g = draw fun x => next x >>= g := rfl

@[simp] lemma attempt_ok (a : α) : attempt (.ok a) = done a := rfl

/-- The limit decides what is cross-checked, not what comes out. -/
theorem accumulate_eq (limit : UInt64) (a : Accumulation) :
    accumulate limit a = done a.closedForm := by
  rw [accumulate, a.run_eq_ok, a.closedForm_eq_ofInt]
  rfl

theorem runLoop_eq {l : GuardedLoop} {start : Int32} {count : UInt64}
    (h : l.iterations start = .ok count) (limit : UInt64) :
    runLoop limit l start = done (Int32.ofInt (l.counterAfter start count.toNat)) := by
  obtain ⟨crossChecked, hrun⟩ := l.run_eq_of_iterations h limit
  rw [runLoop, hrun]
  rfl

end Script
end VerifierBench
