import VerifierBench.Proofs.Report.Judgement

/-! Sessions: operations of any kinds, one after the other, each reporting to a sink on one board.
Recorders and loggers hear of the violations directed at them, each once and in order, and of
nothing else. -/
namespace VerifierBench
variable {σ ι : Type}

/-- The record of a violation, under the location that the violation names itself. -/
def Judgement.record? (j : Judgement) : Option Record :=
  match j.verdict with
  | .holds => none
  | .violated v => some ⟨v.location, v.text⟩

lemma Judgement.isSome_record? (j : Judgement) : j.record?.isSome = j.isViolated := by
  rw [record?, isViolated]
  cases j.verdict <;> rfl

namespace Board

/-- The number of reports that a logger has had. There is no upper bound to it; a counter in a word of
64 bits agrees with it up to `2 ^ 64 - 1` reports. -/
def reached (m : Board ι) (i : ι) : ℕ := (m.logged i).size

def isReached (m : Board ι) (i : ι) : Bool := !(m.recorded i).isEmpty

lemma isReached_iff {m : Board ι} {i : ι} : m.isReached i = true ↔ (m.recorded i).toList ≠ [] := by
  simp [isReached]

end Board

namespace Wiring

/-- The recorders of a wiring, in the order in which they hear of a report. -/
def recorders : Wiring ι → List ι
  | recorder i => [i]
  | logger _ => []
  | tee first second => first.recorders ++ second.recorders

def loggers : Wiring ι → List ι
  | recorder _ => []
  | logger i => [i]
  | tee first second => first.loggers ++ second.loggers

/-- No recorder and no logger is wired in twice. -/
structure Distinct (w : Wiring ι) : Prop where
  recorders : w.recorders.Nodup
  loggers : w.loggers.Nodup

variable [DecidableEq ι]

/-- A recorder keeps a report once for each time it is wired in. -/
lemma recorded_reach (w : Wiring ι) (l : Location) (detail : String) (m : Board ι) (i : ι) :
    ((w.sink.reach l detail m).recorded i).toList =
      (m.recorded i).toList ++ List.replicate (w.recorders.count i) ⟨l.text, detail⟩ := by
  induction w generalizing m with
  | recorder j =>
    by_cases h : i = j
    · simp [sink, recorders, Sink.recorder, h]
    · simp [sink, recorders, h, Ne.symm h]
  | logger j => simp [sink, recorders]
  | tee first second ihfirst ihsecond =>
    -- The second sink hears of the report when the first one already has its record.
    rw [sink, Sink.reach_tee, ihsecond, ihfirst, recorders, List.count_append,
      List.replicate_add, List.append_assoc]

/-- A logger counts a report once for each time it is wired in. -/
lemma reached_reach (w : Wiring ι) (l : Location) (detail : String) (m : Board ι) (i : ι) :
    (w.sink.reach l detail m).reached i = m.reached i + w.loggers.count i := by
  induction w generalizing m with
  | recorder j => simp [sink, loggers, Board.reached]
  | logger j =>
    by_cases h : i = j
    · simp [sink, loggers, Sink.logger, Board.reached, h]
    · simp [sink, loggers, Board.reached, h, Ne.symm h]
  | tee first second ihfirst ihsecond =>
    rw [sink, Sink.reach_tee, ihsecond, ihfirst, loggers, List.count_append, Nat.add_assoc]

end Wiring

/-- What an operation came to, with the sink it was directed at. -/
structure Produced (ι : Type) where
  wiring : Wiring ι
  answer : Answer
  judgements : List Judgement

namespace Produced
variable [DecidableEq ι]

/-- The records of all violations, for a recorder that the operation was directed at. -/
def recordsFor (p : Produced ι) (i : ι) : List Record :=
  if i ∈ p.wiring.recorders then p.judgements.filterMap Judgement.record? else []

/-- The number of violations, for a logger that the operation was directed at. -/
def reportsFor (p : Produced ι) (i : ι) : ℕ :=
  if i ∈ p.wiring.loggers then p.judgements.countP Judgement.isViolated else 0

lemma recordsFor_ne_nil_iff {p : Produced ι} {i : ι} : ¬ p.recordsFor i = [] ↔
    i ∈ p.wiring.recorders ∧ ∃ j ∈ p.judgements, j.isViolated = true := by
  have hnone : ∀ j : Judgement, ¬ j.record? = none ↔ j.isViolated = true := by
    intro j
    rw [← j.isSome_record?, Option.isSome_iff_ne_none]
  rw [recordsFor]
  split
  · next hi => simp only [hi, true_and, List.filterMap_eq_nil_iff, not_forall, exists_prop, hnone]
  · next hi => simp [hi]

end Produced

namespace Judgement
variable [DecidableEq ι] {w : Wiring ι}

lemma recorded_report (hw : w.Distinct) (j : Judgement) (m : Board ι) (i : ι) :
    ((j.report w.sink m).recorded i).toList = (m.recorded i).toList ++
      if i ∈ w.recorders then j.record?.toList else [] := by
  rw [report, record?]
  cases hverdict : j.verdict with
  | holds => simp [Verdict.report]
  | violated v =>
    rw [Verdict.report, w.recorded_reach, hw.recorders.count, ← j.named v hverdict]
    split <;> rfl

lemma reached_report (hw : w.Distinct) (j : Judgement) (m : Board ι) (i : ι) :
    (j.report w.sink m).reached i = m.reached i +
      if i ∈ w.loggers ∧ j.isViolated = true then 1 else 0 := by
  rw [report, isViolated]
  cases j.verdict with
  | holds => simp [Verdict.report, Verdict.isHolds]
  | violated v => simp [Verdict.report, Verdict.isHolds, w.reached_reach, hw.loggers.count]

/-- A recorder keeps the violations directed at it, in order. -/
theorem recorded_reportAll (hw : w.Distinct) (js : List Judgement) (m : Board ι) (i : ι) :
    ((reportAll w.sink js m).recorded i).toList = (m.recorded i).toList ++
      if i ∈ w.recorders then js.filterMap record? else [] := by
  induction js generalizing m with
  | nil => simp [reportAll]
  | cons j js ih =>
    rw [reportAll_cons, ih, recorded_report hw, List.append_assoc]
    split
    · rw [List.filterMap_cons]
      cases j.record? <;> rfl
    · rfl

/-- A logger counts the violations directed at it. -/
theorem reached_reportAll (hw : w.Distinct) (js : List Judgement) (m : Board ι) (i : ι) :
    (reportAll w.sink js m).reached i = m.reached i +
      if i ∈ w.loggers then js.countP isViolated else 0 := by
  induction js generalizing m with
  | nil => simp [reportAll]
  | cons j js ih =>
    rw [reportAll_cons, ih, reached_report hw, List.countP_cons]
    by_cases hi : i ∈ w.loggers
    · simp only [hi, true_and, if_true]
      omega
    · simp [hi]

end Judgement

/-- An operation and the sink it is directed at. -/
structure Directed (ι σ : Type) where
  wiring : Wiring ι
  distinct : wiring.Distinct
  operation : Operation σ

namespace Session

/-- What operations come to, one after another, without a board. -/
def produce : List (Directed ι σ) → σ → Except Error (List (Produced ι) × σ)
  | [], s => .ok ([], s)
  | d :: ds, s => do
    let (answer, judgements, s) ← d.operation.judged s
    let (produced, s) ← produce ds s
    return (⟨d.wiring, answer, judgements⟩ :: produced, s)

/-- Each operation keeps its sink, and its answer tells its judgements. -/
theorem tells_of_produce {ds : List (Directed ι σ)} {s s' : σ} {produced : List (Produced ι)}
    (h : produce ds s = .ok (produced, s')) :
    produced.map Produced.wiring = ds.map Directed.wiring ∧
      ∀ p ∈ produced, p.answer.Tells p.judgements := by
  induction ds generalizing s produced with
  | nil =>
    cases h
    exact ⟨rfl, fun p hp => absurd hp List.not_mem_nil⟩
  | cons d ds ih =>
    obtain ⟨⟨answer, judgements, s₁⟩, hjudged, hlater⟩ := exists_of_bind_eq_ok h
    obtain ⟨⟨rest, s₂⟩, hrest, hpair⟩ := exists_of_bind_eq_ok hlater
    cases hpair
    obtain ⟨hwiring, htells⟩ := ih hrest
    refine ⟨by rw [List.map_cons, List.map_cons, hwiring], List.forall_mem_cons.mpr ⟨?_, htells⟩⟩
    exact Operation.tells_of_judged hjudged

/-- If no draw fails, all operations come to something. -/
theorem exists_produce {ds : List (Directed ι σ)}
    (h : ∀ d ∈ ds, ∀ source ∈ d.operation.source?, source.NeverFails) (s : σ) :
    ∃ produced s', produce ds s = .ok (produced, s') := by
  induction ds generalizing s with
  | nil => exact ⟨[], s, rfl⟩
  | cons d ds ih =>
    obtain ⟨hd, hds⟩ := List.forall_mem_cons.mp h
    obtain ⟨answer, judgements, s₁, hjudged⟩ := Operation.exists_judged hd s
    obtain ⟨produced, s₂, hrest⟩ := ih hds s₁
    refine ⟨⟨d.wiring, answer, judgements⟩ :: produced, s₂, ?_⟩
    simp only [produce, hjudged, hrest, bind, Except.bind]
    rfl

variable [DecidableEq ι]

/-- Carries out operations one after another, each with its own sink on the board. -/
def run : List (Directed ι σ) → σ → Board ι → Except Error (List Answer × σ × Board ι)
  | [], s, m => .ok ([], s, m)
  | d :: ds, s, m => do
    let (answer, s, m) ← d.operation.run d.wiring.sink s m
    let (answers, s, m) ← run ds s m
    return (answer :: answers, s, m)

/-- The board when all judgements have been reported. -/
def board (m : Board ι) (produced : List (Produced ι)) : Board ι :=
  produced.foldl (fun m p => Judgement.reportAll p.wiring.sink p.judgements m) m

@[simp] lemma board_cons (m : Board ι) (p : Produced ι) (produced : List (Produced ι)) :
    board m (p :: produced) =
      board (Judgement.reportAll p.wiring.sink p.judgements m) produced := rfl

/-- A session goes on without regard to the board, and the board hears of its judgements in order.
-/
theorem run_eq_map (ds : List (Directed ι σ)) (s : σ) (m : Board ι) :
    run ds s m = (produce ds s).map fun (produced, s) =>
      (produced.map Produced.answer, s, board m produced) := by
  induction ds generalizing s m with
  | nil => rfl
  | cons d ds ih =>
    rw [run, produce, d.operation.run_eq_map]
    cases d.operation.judged s with
    | error cause => rfl
    | ok judged =>
      obtain ⟨answer, judgements, s⟩ := judged
      simp only [bind, Except.bind, Except.map, ih]
      cases produce ds s <;> rfl

section Board
variable {produced : List (Produced ι)}

/-- A recorder keeps the violations of all operations directed at it, in order. -/
theorem recorded_board (h : ∀ p ∈ produced, p.wiring.Distinct) (m : Board ι) (i : ι) :
    ((board m produced).recorded i).toList =
      (m.recorded i).toList ++ produced.flatMap fun p => p.recordsFor i := by
  induction produced generalizing m with
  | nil => simp [board]
  | cons p produced ih =>
    obtain ⟨hp, hproduced⟩ := List.forall_mem_cons.mp h
    rw [board_cons, ih hproduced, Judgement.recorded_reportAll hp, List.append_assoc,
      List.flatMap_cons]
    rfl

/-- A logger counts the violations of all operations directed at it. -/
theorem reached_board (h : ∀ p ∈ produced, p.wiring.Distinct) (m : Board ι) (i : ι) :
    (board m produced).reached i =
      m.reached i + (produced.map fun p => p.reportsFor i).sum := by
  induction produced generalizing m with
  | nil => simp [board]
  | cons p produced ih =>
    obtain ⟨hp, hproduced⟩ := List.forall_mem_cons.mp h
    rw [board_cons, ih hproduced, Judgement.reached_reportAll hp, List.map_cons, List.sum_cons,
      Nat.add_assoc]
    rfl

/-- A recorder has been reached if it was, or if an operation directed at it found a violation. -/
theorem isReached_board (h : ∀ p ∈ produced, p.wiring.Distinct) (m : Board ι) (i : ι) :
    (board m produced).isReached i = true ↔ m.isReached i = true ∨
      ∃ p ∈ produced, i ∈ p.wiring.recorders ∧ ∃ j ∈ p.judgements, j.isViolated = true := by
  simp only [Board.isReached_iff, recorded_board h, ne_eq, List.append_eq_nil_iff,
    List.flatMap_eq_nil_iff, not_and_or, not_forall, exists_prop, Produced.recordsFor_ne_nil_iff]

end Board

/-- A session succeeds unless a draw fails. Then each operation gives back what its judgements
say; each recorder has the records it had, and behind them one for each violation directed at it,
in order and with the violation's own location and text; each logger has counted the violations
directed at it, however many there are; and a recorder has been reached exactly if it was before or
if an operation directed at it found a violation. -/
theorem run_reports (ds : List (Directed ι σ)) (s : σ) (m : Board ι) :
    ((∀ d ∈ ds, ∀ source ∈ d.operation.source?, source.NeverFails) →
      ∃ answers s' m', run ds s m = .ok (answers, s', m')) ∧
    (∀ cause, run ds s m = .error cause ↔ produce ds s = .error cause) ∧
    ∀ answers s' m', run ds s m = .ok (answers, s', m') →
      ∃ produced, produce ds s = .ok (produced, s') ∧
        produced.map Produced.answer = answers ∧
        produced.map Produced.wiring = ds.map Directed.wiring ∧
        (∀ p ∈ produced, p.answer.Tells p.judgements) ∧
        ∀ i,
          (m'.recorded i).toList =
            (m.recorded i).toList ++ produced.flatMap (fun p => p.recordsFor i) ∧
          m'.reached i = m.reached i + (produced.map fun p => p.reportsFor i).sum ∧
          (m'.isReached i = true ↔ m.isReached i = true ∨
            ∃ p ∈ produced, i ∈ p.wiring.recorders ∧ ∃ j ∈ p.judgements, j.isViolated = true) := by
  rw [run_eq_map]
  refine ⟨fun hsources => ?_, fun cause => map_eq_error_iff, fun answers s' m' hrun => ?_⟩
  · obtain ⟨produced, s', hproduced⟩ := exists_produce hsources s
    rw [hproduced]
    exact ⟨_, _, _, rfl⟩
  · obtain ⟨⟨produced, s₁⟩, hproduced, hpair⟩ := exists_of_map_eq_ok hrun
    cases hpair
    obtain ⟨hwiring, htells⟩ := tells_of_produce hproduced
    have hdistinct : ∀ p ∈ produced, p.wiring.Distinct := by
      intro p hp
      have hmem : p.wiring ∈ ds.map Directed.wiring := hwiring ▸ List.mem_map_of_mem hp
      obtain ⟨d, -, hd⟩ := List.mem_map.mp hmem
      exact hd ▸ d.distinct
    exact ⟨produced, hproduced, rfl, hwiring, htells, fun i =>
      ⟨recorded_board hdistinct m i, reached_board hdistinct m i, isReached_board hdistinct m i⟩⟩

/-- Two recorders with a logger between them. -/
def nested : Wiring ℕ := .tee (.tee (.recorder 0) (.logger 0)) (.recorder 1)

/-- A wrong answer and a right one, both directed at the same sinks. -/
def wrongThenRight : List (Directed ℕ ℕ) :=
  [.oracle ⟨1, 2, 3, 4, 5, 6⟩ ⟨5, 1⟩, .runOnce .derived (.ofStream fun _ => 0)].map fun operation =>
    { wiring := nested, distinct := ⟨by decide, by decide⟩, operation }

/-- What the wrong answer is reported as. -/
def wrongMaximum : Record where
  location := "maxmin6::ERROR"
  message := "maxmin6::ERROR: (max >= f) does not hold for inputs (1,2,3,4,5,6) with max=5, min=1"

/-- Both recorders keep the violation of the wrong answer, the logger counts it, and nothing is
heard of the right one. -/
theorem run_reports_wrongThenRight :
    (∀ d ∈ wrongThenRight, ∀ source ∈ d.operation.source?, source.NeverFails) ∧
    ∃ answers s' m', run wrongThenRight 0 .empty = .ok (answers, s', m') ∧ ∀ i,
      (m'.recorded i).toList = (if i ∈ nested.recorders then [wrongMaximum] else []) ∧
      m'.reached i = (if i ∈ nested.loggers then 1 else 0) ∧
      (m'.isReached i = true ↔ i ∈ nested.recorders) := by
  have hsources : ∀ d ∈ wrongThenRight, ∀ source ∈ d.operation.source?, source.NeverFails := by
    intro d hd source hsource
    rw [wrongThenRight, List.map_cons, List.map_singleton, List.mem_pair] at hd
    rcases hd with rfl | rfl
    · cases hsource
    · cases hsource
      exact fun s => ⟨_, rfl⟩
  obtain ⟨hsucceeds, -, hreports⟩ := run_reports wrongThenRight 0 .empty
  obtain ⟨answers, s', m', hrun⟩ := hsucceeds hsources
  obtain ⟨produced, hproduced, -, -, -, hboard⟩ := hreports answers s' m' hrun
  have hjudged : produce wrongThenRight 0 = .ok ([
      ⟨nested, .verdict _, [.ofOracle ⟨1, 2, 3, 4, 5, 6⟩ ⟨5, 1⟩]⟩,
      ⟨nested, .verdict _, [.ofCase .derived ⟨0, 0, 0, 0, 0, 0⟩]⟩], 6) := rfl
  cases hjudged.symm.trans hproduced
  have hwrong : (Judgement.ofOracle ⟨1, 2, 3, 4, 5, 6⟩ ⟨5, 1⟩).record? = some wrongMaximum := by
    decide +kernel
  have hright : (Judgement.ofCase .derived ⟨0, 0, 0, 0, 0, 0⟩).record? = none := by decide +kernel
  refine ⟨hsources, answers, _, m', hrun, fun i => ?_⟩
  obtain ⟨hrecorded, hreached, hisReached⟩ := hboard i
  refine ⟨?_, ?_, ?_⟩
  · rw [hrecorded]
    by_cases hi : i ∈ nested.recorders <;>
      simp [Board.empty, Produced.recordsFor, hwrong, hright, hi]
  · rw [hreached]
    by_cases hi : i ∈ nested.loggers <;>
      simp [Board.empty, Board.reached, Produced.reportsFor, ← Judgement.isSome_record?, hwrong,
        hright, hi]
  · rw [hisReached]
    simp [Board.empty, Board.isReached, ← Judgement.isSome_record?, hwrong, hright]

end Session
end VerifierBench
