import Mathlib.Data.List.Sort
import VerifierBench.Proofs.Campaign.Accounting
import VerifierBench.Proofs.Campaign.Repeated

/-! Two campaigns, one after the other, as one. A coverage table is known by its hits, so a report
is known by the sextuples looked at, and the reports of two campaigns combine to that of both. -/
namespace VerifierBench
variable {σ μ : Type}

namespace Leaf

/-- All pairs of positions, in leaf order. -/
def all : List Leaf := Position.all.flatMap fun p => Position.all.map fun q => ⟨p, q⟩

lemma mem_all (l : Leaf) : l ∈ all :=
  List.mem_flatMap.mpr ⟨l.max, l.max.mem_all, List.mem_map.mpr ⟨l.min, l.min.mem_all, rfl⟩⟩

lemma ordered_all : all.Pairwise fun k l => k.rank < l.rank := by decide

end Leaf

namespace Coverage
variable {c d : Coverage}

/-- The leaves with hits, in leaf order, each with its number of hits. -/
def table (hits : Leaf → ℕ) : Coverage :=
  (Leaf.all.filter fun l => 0 < hits l).map fun l => (l, hits l)

lemma mem_table (hits : Leaf → ℕ) (l : Leaf) (n : ℕ) :
    (l, n) ∈ table hits ↔ 0 < n ∧ n = hits l := by
  simp only [table, List.mem_map, List.mem_filter, Leaf.mem_all, true_and, decide_eq_true_eq,
    Prod.mk.injEq]
  constructor
  · rintro ⟨k, hpos, rfl, rfl⟩
    exact ⟨hpos, rfl⟩
  · rintro ⟨hpos, rfl⟩
    exact ⟨l, hpos, rfl, rfl⟩

lemma ordered_table (hits : Leaf → ℕ) : (table hits).Ordered :=
  (Leaf.ordered_all.filter _).map _ fun _ _ hlt => hlt

/-- A table in leaf order is known by its lines. -/
lemma Ordered.eq_of_mem_iff (hc : c.Ordered) (hd : d.Ordered)
    (h : ∀ l n, (l, n) ∈ c ↔ (l, n) ∈ d) : c = d := by
  have : Std.Irrefl fun x y : Leaf × ℕ => x.1.rank < y.1.rank := ⟨fun _ => Nat.lt_irrefl _⟩
  have : Std.Antisymm fun x y : Leaf × ℕ => x.1.rank < y.1.rank :=
    ⟨fun _ _ hxy hyx => absurd hxy (Nat.lt_asymm hyx)⟩
  exact List.Pairwise.eq_of_mem_iff hc hd fun x => h x.1 x.2

lemma Counts.eq_table {ls : List Leaf} (h : c.Counts ls) : c = table ls.count := by
  refine h.ordered.eq_of_mem_iff (ordered_table _) fun l n => ?_
  rw [h.mem_iff, mem_table]

end Coverage

namespace CampaignReport
variable {r r₁ r₂ : CampaignReport} {t : DecisionTree} {vs ws : List Sextuple}

/-- The report on the runs of one campaign and then those of another. -/
def combine (r₁ r₂ : CampaignReport) : CampaignReport where
  cases := r₁.cases + r₂.cases
  violations := r₁.violations + r₂.violations
  firstCounterexample := r₁.firstCounterexample.or r₂.firstCounterexample
  coverage := .table fun l => r₁.coverage.hits l + r₂.coverage.hits l

/-- The runs a report accounts for determine all of it. -/
theorem Accounts.eq_combine (h : r.Accounts t (vs ++ ws)) (h₁ : r₁.Accounts t vs)
    (h₂ : r₂.Accounts t ws) : r = r₁.combine r₂ := by
  have hhits : ((vs ++ ws).map fun v => (t.select v).leaf).count =
      fun l => r₁.coverage.hits l + r₂.coverage.hits l := by
    funext l
    rw [List.map_append, List.count_append, h₁.coverage.hits_eq, h₂.coverage.hits_eq]
  cases r
  simp only [combine, mk.injEq]
  refine ⟨?_, ?_, ?_, ?_⟩
  · rw [h₁.cases_eq, h₂.cases_eq, ← List.length_append]
    exact h.cases_eq
  · rw [h₁.violations_eq, h₂.violations_eq, ← List.countP_append]
    exact h.violations_eq
  · rw [h₁.first_eq, h₂.first_eq, ← List.find?_append]
    exact h.first_eq
  · rw [← hhits]
    exact h.coverage.eq_table

end CampaignReport

namespace DecisionTree
variable {t : DecisionTree} {source : Nondet σ}

lemma ofCases_map_caseReport (t : DecisionTree) (vs : List Sextuple) :
    CampaignReport.ofCases (vs.map t.caseReport) = t.recordAll vs .empty :=
  List.foldl_map

lemma accounts_recordAll (t : DecisionTree) (vs : List Sextuple) :
    (t.recordAll vs .empty).Accounts t vs :=
  (CampaignReport.accounts_empty t).recordAll vs

/-- What a campaign draws determines what it reports and what its sink hears. -/
lemma campaign_eq_map (t : DecisionTree) (source : Nondet σ) (sink : Sink μ) (failFast : Bool)
    (cases : UInt64) (s : σ) (m : μ) :
    t.campaign source sink failFast cases s m =
      (t.drawProcessed source failFast cases.toNat s).map fun (vs, s) =>
        (t.recordAll vs .empty, s, t.reachAll sink vs m) := by
  rw [campaign, campaignFrom_eq_map, runRepeatedly_eq_map]
  cases t.drawProcessed source failFast cases.toNat s with
  | error cause => rfl
  | ok drawn =>
    simp only [Except.map, ← t.ofCases_map_caseReport]
    rfl

lemma reachAll_append (t : DecisionTree) (sink : Sink μ) (vs ws : List Sextuple) (m : μ) :
    t.reachAll sink (vs ++ ws) m = t.reachAll sink ws (t.reachAll sink vs m) :=
  List.foldl_append

/-- Without failing fast, a campaign can be run in two parts. -/
theorem campaign_add (t : DecisionTree) (source : Nondet σ) (sink : Sink μ) {a b k : UInt64}
    (hk : k.toNat = a.toNat + b.toNat) (s : σ) (m : μ) :
    t.campaign source sink false k s m = do
      let (r₁, s, m) ← t.campaign source sink false a s m
      let (r₂, s, m) ← t.campaign source sink false b s m
      return (r₁.combine r₂, s, m) := by
  simp only [campaign_eq_map]
  rw [hk, drawProcessed_add]
  cases t.drawProcessed source false a.toNat s with
  | error cause => rfl
  | ok first =>
    obtain ⟨vs, s⟩ := first
    simp only [bind, Except.bind, Except.map]
    cases t.drawProcessed source false b.toNat s with
    | error cause => rfl
    | ok second =>
      obtain ⟨ws, s⟩ := second
      have hreport := (t.accounts_recordAll (vs ++ ws)).eq_combine (t.accounts_recordAll vs)
        (t.accounts_recordAll ws)
      simp only [pure, Except.pure, hreport, reachAll_append]

/-- What the runs of a campaign leave: the reports on its cases, the source behind the words of
these cases and no further, and the number of cases. -/
theorem runRepeatedly_of_campaign {sink : Sink μ} {failFast : Bool} {cases : UInt64} {s s' : σ}
    {m m' : μ} {r : CampaignReport}
    (h : t.campaign source sink failFast cases s m = .ok (r, s', m')) :
    ∃ reports, t.runRepeatedly source sink failFast cases.toNat s m = .ok (reports, s', m') ∧
      r.cases = reports.length ∧ r.cases ≤ cases.toNat ∧
      (failFast = false → r.cases = cases.toNat) ∧
      source.drawMany (6 * r.cases) s = .ok (reports.flatMap fun c => c.inputs.toList, s') := by
  rw [campaign_eq_map] at h
  obtain ⟨⟨vs, s₁⟩, hdrawn, hpair⟩ := exists_of_map_eq_ok h
  cases hpair
  rw [runRepeatedly_eq_map, hdrawn]
  have hcases : (t.recordAll vs .empty).cases = vs.length := (t.accounts_recordAll vs).cases_eq
  refine ⟨vs.map t.caseReport, rfl, ?_, ?_, ?_, ?_⟩
  · rw [hcases, List.length_map]
  · rw [hcases]
    exact length_drawProcessed_le hdrawn
  · rintro rfl
    rw [hcases]
    exact length_drawProcessed_eq hdrawn
  · rw [hcases, List.flatMap_map]
    exact drawMany_of_drawProcessed hdrawn

/-- A campaign does what repeated single runs on the same source and sink do, and what the loop
over sextuples drawn on demand does. It succeeds if the source gives all the words it could ask
for, takes six words for each case reported and none ahead, and can be run in two parts unless it
fails fast. -/
theorem campaign_as_repeated_runs (t : DecisionTree) (source : Nondet σ) (sink : Sink μ)
    (failFast : Bool) (cases : UInt64) (s : σ) (m : μ) :
    (t.campaign source sink failFast cases s m =
      (t.runRepeatedly source sink failFast cases.toNat s m).map fun (reports, s, m) =>
        (.ofCases reports, s, m)) ∧
    (∃ result,
      (∀ result', t.Loops sink failFast source.pull (cases.toNat, s) .empty m result' ↔
        result' = result) ∧
      t.campaign source sink failFast cases s m = result.map fun (r, (_, s), m) => (r, s, m)) ∧
    ((∃ drawn, source.drawMany (6 * cases.toNat) s = .ok drawn) →
      ∃ r s' m', t.campaign source sink failFast cases s m = .ok (r, s', m')) ∧
    (∀ r s' m', t.campaign source sink failFast cases s m = .ok (r, s', m') →
      ∃ reports, t.runRepeatedly source sink failFast cases.toNat s m = .ok (reports, s', m') ∧
        r.cases = reports.length ∧ r.cases ≤ cases.toNat ∧
        (failFast = false → r.cases = cases.toNat) ∧
        source.drawMany (6 * r.cases) s = .ok (reports.flatMap fun c => c.inputs.toList, s')) ∧
    (∀ a b k : UInt64, k.toNat = a.toNat + b.toNat →
      t.campaign source sink false k s m = do
        let (r₁, s, m) ← t.campaign source sink false a s m
        let (r₂, s, m) ← t.campaign source sink false b s m
        return (r₁.combine r₂, s, m)) := by
  refine ⟨t.campaignFrom_eq_map source sink failFast _ _ s m, ?_, ?_,
    fun _ _ _ => runRepeatedly_of_campaign, fun _ _ _ hk => t.campaign_add source sink hk s m⟩
  · obtain ⟨result, hloops, hresult⟩ :=
      t.exists_loops_pull source sink failFast cases.toNat .empty s m
    refine ⟨result, fun result' => ⟨hloops.unique, ?_⟩, hresult⟩
    rintro rfl
    exact hloops
  · intro hdrawn
    obtain ⟨vs, s', hvs⟩ := t.exists_drawProcessed failFast hdrawn
    rw [campaign_eq_map, hvs]
    exact ⟨_, _, _, rfl⟩

end DecisionTree
end VerifierBench
