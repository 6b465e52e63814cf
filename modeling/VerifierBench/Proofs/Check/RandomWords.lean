import VerifierBench.Proofs.Campaign.Combined
import VerifierBench.Proofs.Check.Answer
import VerifierBench.Proofs.Source.Interleaving

/-! Random campaigns, word by word. Six words make a case, every fourth word is a boundary word and
there are nine of those, so where a boundary word lands repeats after thirty-six draws at the latest:
half of the positions never get one, and each other position gets the same three. -/
namespace VerifierBench

lemma Source.getElem?_replayed {values : List Int32} (h : 0 < values.length) (n : ℕ) :
    values[n % values.length]? = some (replayed values n) := by
  have hlt := Nat.mod_lt n h
  rw [replayed, List.getD_eq_getElem?_getD, List.getElem?_eq_getElem hlt, Option.getD_some]

namespace CheckRequest

/-- The source of a random campaign after `n` draws. -/
def sourceAfter (seed : UInt64) (n : ℕ) : Source :=
  .interleave (.random ((WordStream.seeded seed).after (n - n / 4)) none)
    (.replaying Source.boundaryValues (n / 4)) 4 n

/-- The words of random campaigns with a seed, whatever tree they run on. -/
def campaignWords (seed : UInt64) : ℕ → Int32 :=
  interleaved (Source.randomWords seed) (Source.replayed Source.boundaryValues) 4

lemma draws_sourceAfter (seed : UInt64) :
    Source.nondet.Draws (sourceAfter seed) (campaignWords seed) :=
  Nondet.Draws.of_draw_eq (f := Source.ofInterleaving) Source.draw_ofInterleaving
    ((Source.draws_seeded seed).interleave (Source.draws_fixed Source.boundaryValues) 4)

/-- The places in the list of boundary words that a position gets, up to multiples of three. -/
def boundaryPlace : Position → Option ℕ
  | .d => some 0
  | .b => some 1
  | .f => some 2
  | _ => none

lemma boundaryPlace_eq {p : Position} {k n : ℕ} (hn : n = 6 * k + p.index + 1) (h : 4 ∣ n) :
    boundaryPlace p = some ((n / 4 - 1) % 9 % 3) := by
  -- Only even draws are multiples of four; `d` has those with `k` even, `b` and `f` those with `k` odd.
  subst hn
  cases p <;> simp only [Position.index, boundaryPlace, Option.some.injEq] at * <;> omega

/-- The cases of a campaign were given words that depend on their numbers alone. Draw number
`n = 6 * k + i + 1` is for position number `i` of case number `k`. -/
structure Deals (seed : UInt64) (vs : List Sextuple) : Prop where
  words_eq : vs.flatMap Slots.toList = (List.range (6 * vs.length)).map (campaignWords seed)
  boundary_word : ∀ k v p n, vs[k]? = some v → n = 6 * k + p.index + 1 → 4 ∣ n →
    Source.boundaryValues[(n / 4 - 1) % 9]? = some (v.get p)
  random_word : ∀ k v p n, vs[k]? = some v → n = 6 * k + p.index + 1 → ¬ 4 ∣ n →
    v.get p = Source.randomWords seed (n - n / 4 - 1)
  /-- Positions without a place among the boundary words never get one. -/
  boundary_place : ∀ k (p : Position) n, n = 6 * k + p.index + 1 → 4 ∣ n →
    boundaryPlace p = some ((n / 4 - 1) % 9 % 3)
  random_in_order : ∀ n, ((List.range n).filter fun i => ¬ 4 ∣ i + 1).map (campaignWords seed) =
    (List.range (n - n / 4)).map (Source.randomWords seed)

theorem deals_blocks (seed : UInt64) (cases : ℕ) :
    Deals seed (Sextuple.blocks (campaignWords seed) 0 cases) := by
  have hget : ∀ {k v}, (Sextuple.blocks (campaignWords seed) 0 cases)[k]? = some v →
      ∀ p : Position, v.get p = campaignWords seed (6 * k + p.index) := by
    intro k v hv p
    have hk := (List.getElem?_eq_some_iff.mp hv).1
    rw [Sextuple.length_blocks] at hk
    rw [Sextuple.getElem?_blocks _ hk, Option.some.injEq] at hv
    rw [← hv, Sextuple.ofStream, Slots.get_ofFn, Nat.zero_add]
  refine ⟨?_, ?_, ?_, fun _ _ _ => boundaryPlace_eq, map_interleaved_not_dvd _ _ 4⟩
  · rw [Sextuple.flatMap_blocks, Sextuple.length_blocks, List.range_eq_range']
  · rintro k v p n hv rfl hdvd
    rw [hget hv, campaignWords, interleaved, if_pos hdvd]
    have hpos : 0 < Source.boundaryValues.length := by decide
    exact Source.getElem?_replayed hpos _
  · rintro k v p n hv rfl hdvd
    rw [hget hv, campaignWords, interleaved, if_neg hdvd, Nat.sub_right_comm, Nat.add_sub_cancel]

lemma respond_random_eq_campaign (seed cases : UInt64) (failFast : Bool) (limit : UInt64)
    (fault : Option Fault) : (random cases seed fault failFast).respond limit = do
      let t ← treeWith fault
      let (r, _, records) ←
        t.campaign Source.nondet .recorder failFast cases (randomSource seed) #[]
      return ⟨.ofRecords records.toList, .campaign (.ofReport t r)⟩ := by
  rw [respond, perform]
  cases treeWith fault with
  | error cause => rfl
  | ok t =>
    simp only [bind, Except.bind]
    cases t.campaign Source.nondet .recorder failFast cases (randomSource seed) #[] <;> rfl

/-- A random campaign looks at cases with the words dealt by its seed, all the cases asked for or up to
the first violation, and leaves the source behind their last word: of the random words, and of the
boundary words, it has used as many as it dealt. -/
theorem random_campaign_words (seed cases : UInt64) (failFast : Bool) :
    Source.nondet.Supplies (.seeded seed none) (Source.randomWords seed) ∧
    (∀ (μ : Type) (t : DecisionTree) (sink : Sink μ) (m : μ), ∃ (reports : List CaseReport) (m' : μ),
      t.runRepeatedly Source.nondet sink failFast cases.toNat (randomSource seed) m =
        .ok (reports, sourceAfter seed (6 * reports.length), m') ∧
      t.campaign Source.nondet sink failFast cases (randomSource seed) m =
        .ok (.ofCases reports, sourceAfter seed (6 * reports.length), m') ∧
      Deals seed (reports.map CaseReport.inputs) ∧ reports.length ≤ cases.toNat ∧
      (failFast = false → reports.length = cases.toNat)) ∧
    ∀ limit fault, (random cases seed fault failFast).respond limit = do
      let t ← treeWith fault
      let (r, _, records) ←
        t.campaign Source.nondet .recorder failFast cases (randomSource seed) #[]
      return ⟨.ofRecords records.toList, .campaign (.ofReport t r)⟩ := by
  refine ⟨Source.supplies_seeded seed, fun μ t sink m => ?_,
    respond_random_eq_campaign seed cases failFast⟩
  obtain ⟨vs, hvs⟩ : ∃ vs, t.processed failFast
      (Sextuple.blocks (campaignWords seed) 0 cases.toNat) = vs := ⟨_, rfl⟩
  have hdrawn := DecisionTree.drawProcessed_eq (draws_sourceAfter seed) t failFast cases.toNat 0
  rw [hvs, Nat.zero_add] at hdrawn
  have hinputs : (vs.map t.caseReport).map CaseReport.inputs = vs := by
    rw [List.map_map]
    exact List.map_id vs
  have hprefix : vs <+: Sextuple.blocks (campaignWords seed) 0 cases.toNat :=
    hvs ▸ t.processed_prefix failFast _
  refine ⟨vs.map t.caseReport, t.reachAll sink vs m, ?_, ?_, ?_, ?_, ?_⟩
  · rw [t.runRepeatedly_eq_map, List.length_map]
    exact congrArg (Except.map _) hdrawn
  · rw [t.campaign_eq_map, List.length_map, t.ofCases_map_caseReport]
    exact congrArg (Except.map _) hdrawn
  · rw [hinputs, Sextuple.eq_blocks_of_prefix hprefix]
    exact deals_blocks seed vs.length
  · rw [List.length_map]
    exact DecisionTree.length_drawProcessed_le hdrawn
  · rintro rfl
    rw [List.length_map]
    exact DecisionTree.length_drawProcessed_eq hdrawn

/-- The first three boundary words are for `d`, for `b` and for `f`. -/
example : campaignWords 42 3 = 0 ∧ campaignWords 42 7 = 1 ∧ campaignWords 42 11 = -1 := by decide

end CheckRequest
end VerifierBench
