import VerifierBench.Proofs.Campaign.Coverage
import VerifierBench.Proofs.Campaign.Sweep
import VerifierBench.Proofs.Tree.Leaves

/-! The books of a sweep. Each run changes counters, first counterexample, coverage and sink in places
of their own; one invariant ties them to the sextuples looked at so far, and a whole sweep keeps it. -/
namespace VerifierBench

namespace DecisionTree
variable {μ : Type}

/-- What is found wrong with the answer on six words. -/
def violation (t : DecisionTree) (v : Sextuple) : Violation :=
  ⟨Oracle.location.text, Oracle.failedConjuncts v (t.select v).result,
    "inputs (" ++ v.text ++ ") with " ++ (t.select v).result.text⟩

lemma verdict_caseReport (t : DecisionTree) (v : Sextuple) :
    (t.caseReport v).verdict = if t.violates v then .violated (t.violation v) else .holds := by
  cases h : Oracle.postconditionHolds v (t.select v).result <;>
    simp [caseReport, Oracle.judge, violates, violation, h]

/-- The sink is reached once for each violation, in order, and not at all otherwise. -/
theorem reachAll_eq (t : DecisionTree) (sink : Sink μ) (vs : List Sextuple) (m : μ) :
    t.reachAll sink vs m = (vs.filter t.violates).foldl
      (fun m v => sink.reach Oracle.location (t.violation v).text m) m := by
  induction vs generalizing m with
  | nil => rfl
  | cons v vs ih =>
    have hstep : t.reachAll sink (v :: vs) m =
        t.reachAll sink vs ((t.caseReport v).verdict.report Oracle.location sink m) := rfl
    rw [hstep, ih, verdict_caseReport, List.filter_cons]
    split <;> rfl

lemma processed_false (t : DecisionTree) (vs : List Sextuple) : t.processed false vs = vs := by
  induction vs with
  | nil => rfl
  | cons v vs ih => rw [processed, Bool.false_and, if_neg Bool.false_ne_true, ih]

/-- Failing fast looks at the correctly answered sextuples in front and then at the first violation. -/
lemma processed_true (t : DecisionTree) (vs : List Sextuple) :
    t.processed true vs =
      vs.takeWhile (fun v => !t.violates v) ++ (vs.find? t.violates).toList := by
  induction vs with
  | nil => rfl
  | cons v vs ih =>
    rw [processed, List.takeWhile_cons, List.find?_cons, ih]
    cases h : t.violates v <;> simp

lemma find?_processed (t : DecisionTree) (failFast : Bool) (vs : List Sextuple) :
    (t.processed failFast vs).find? t.violates = vs.find? t.violates := by
  induction vs with
  | nil => rfl
  | cons v vs ih =>
    rw [processed, List.find?_cons]
    split
    · next hstop =>
      have hv : t.violates v = true := (Bool.and_eq_true_iff.mp hstop).2
      simp [hv]
    · rw [List.find?_cons, ih]

end DecisionTree

namespace CampaignReport
variable {r : CampaignReport} {t : DecisionTree} {seen : List Sextuple}

/-- The report is what runs of the tree on the sextuples in `seen`, in order, make of an empty one. -/
structure Accounts (r : CampaignReport) (t : DecisionTree) (seen : List Sextuple) : Prop where
  cases_eq : r.cases = seen.length
  violations_eq : r.violations = seen.countP t.violates
  first_eq : r.firstCounterexample = seen.find? t.violates
  coverage : r.coverage.Counts (seen.map fun v => (t.select v).leaf)

lemma accounts_empty (t : DecisionTree) : empty.Accounts t [] := ⟨rfl, rfl, rfl, .nil⟩

/-- One more run keeps the books. -/
theorem Accounts.record (h : r.Accounts t seen) (v : Sextuple) :
    (r.record (t.caseReport v)).Accounts t (seen ++ [v]) := by
  refine ⟨?_, ?_, ?_, ?_⟩
  · rw [cases_record, h.cases_eq, List.length_append, List.length_singleton]
  · rw [violations_record, t.isHolds_caseReport, h.violations_eq, List.countP_append,
      List.countP_singleton]
    cases t.violates v <;> rfl
  · have hfirst : (r.record (t.caseReport v)).firstCounterexample =
        if t.violates v then some (r.firstCounterexample.getD v) else r.firstCounterexample := by
      simp only [CampaignReport.record, t.isHolds_caseReport]
      cases t.violates v <;> rfl
    rw [hfirst, h.first_eq, List.find?_append]
    cases hv : t.violates v with
    | false => simp [hv]
    | true => cases seen.find? t.violates <;> simp [hv]
  · rw [List.map_append]
    exact h.coverage.hit (t.select v).leaf

theorem Accounts.recordAll (h : r.Accounts t seen) (vs : List Sextuple) :
    (t.recordAll vs r).Accounts t (seen ++ vs) := by
  induction vs generalizing r seen with
  | nil => rwa [List.append_nil]
  | cons v vs ih =>
    rw [DecisionTree.recordAll_cons, List.append_cons]
    exact ih (h.record v)

lemma Accounts.none_iff (h : r.Accounts t seen) :
    r.firstCounterexample = none ↔ r.violations = 0 := by
  rw [h.first_eq, h.violations_eq, List.find?_eq_none, List.countP_eq_zero]

lemma Accounts.hits_eq (h : r.Accounts t seen) (l : Leaf) :
    r.coverage.hits l = seen.countP fun v => decide ((t.select v).leaf = l) := by
  rw [h.coverage.hits_eq, List.count_eq_countP, List.countP_map]
  rfl

/-- The leaves taken and the leaves not taken are all leaves, each once. -/
theorem Accounts.partition (h : r.Accounts t seen) (hnodup : t.leaves.Nodup) :
    (r.coverage.map Prod.fst ++ r.uncovered t).Perm t.leaves := by
  have hmem : ∀ l, l ∈ r.uncovered t ↔
      l ∈ t.leaves ∧ l ∉ seen.map fun v => (t.select v).leaf := by
    intro l
    rw [uncovered, List.mem_filter, Bool.not_eq_true', ← Bool.not_eq_true, h.coverage.covers_iff]
  have hdisjoint : (r.coverage.map Prod.fst ++ r.uncovered t).Nodup := by
    refine List.nodup_append.mpr ⟨h.coverage.nodup_keys, hnodup.filter _, ?_⟩
    rintro k hk l hl rfl
    exact ((hmem k).mp hl).2 ((h.coverage.mem_keys_iff k).mp hk)
  refine (List.perm_ext_iff_of_nodup hdisjoint hnodup).mpr ?_
  intro l
  rw [List.mem_append, h.coverage.mem_keys_iff, hmem]
  have hleaf : (l ∈ seen.map fun v => (t.select v).leaf) → l ∈ t.leaves := by
    rintro hl
    obtain ⟨v, -, rfl⟩ := List.mem_map.mp hl
    exact t.leaf_mem_leaves v
  grind

/-- What a report says about the sextuples that were looked at, in order. -/
structure Describes (r : CampaignReport) (t : DecisionTree) (seen : List Sextuple) : Prop where
  cases_eq : r.cases = seen.length
  violations_eq : r.violations = seen.countP t.violates
  first_eq : r.firstCounterexample = seen.find? t.violates
  none_iff : r.firstCounterexample = none ↔ r.violations = 0
  hits_eq : ∀ l, r.coverage.hits l = seen.countP fun v => decide ((t.select v).leaf = l)
  hits_sum : (r.coverage.map Prod.snd).sum = r.cases
  /-- The coverage table has a line for each leaf with hits, and no other line. -/
  mem_table_iff : ∀ l n, (l, n) ∈ r.coverage ↔ 0 < n ∧ n = r.coverage.hits l
  table_order : r.coverage.Pairwise fun x y => x.1.Precedes y.1
  partition : (r.coverage.map Prod.fst ++ r.uncovered t).Perm t.leaves
  /-- All counters are 64-bit words. -/
  fits : r.cases < UInt64.size ∧ r.violations < UInt64.size ∧
    ∀ l, r.coverage.hits l < UInt64.size

theorem Accounts.describes (h : r.Accounts t seen) (hnodup : t.leaves.Nodup)
    (hlen : seen.length < UInt64.size) : r.Describes t seen where
  cases_eq := h.cases_eq
  violations_eq := h.violations_eq
  first_eq := h.first_eq
  none_iff := h.none_iff
  hits_eq := h.hits_eq
  hits_sum := by rw [h.coverage.total, h.cases_eq, List.length_map]
  mem_table_iff := by
    intro l n
    rw [h.coverage.mem_iff, h.coverage.hits_eq]
  table_order := h.coverage.ordered.imp Leaf.precedes_iff_rank_lt.mpr
  partition := h.partition hnodup
  fits := by
    refine ⟨h.cases_eq ▸ hlen, ?_, ?_⟩
    · rw [h.violations_eq]
      exact Nat.lt_of_le_of_lt List.countP_le_length hlen
    · intro l
      rw [h.hits_eq]
      exact Nat.lt_of_le_of_lt List.countP_le_length hlen

end CampaignReport

namespace DecisionTree
variable {μ : Type}

lemma accounts_sweep (t : DecisionTree) (sink : Sink μ) (failFast : Bool) (supply : Supply)
    (m : μ) : (t.sweep sink failFast supply m).1.Accounts t
      (t.processed failFast supply.toList) := by
  rw [sweep, sweepFrom_eq]
  exact (CampaignReport.accounts_empty t).recordAll _

/-- A sweep looks at the whole supply, or up to the first violation if it fails fast. Its report
describes what was looked at, the sink hears of each violation once and in order, and both ways of
sweeping agree on the first counterexample. -/
theorem sweep_report_exact {fs : List Fault} {t : DecisionTree} (ht : derived.injectAll fs = .ok t)
    {supply : Supply} (hlen : supply.toList.length < UInt64.size) (sink : Sink μ) (m : μ) :
    (t.leaves.length = 30 ∧ t.leaves.Nodup) ∧
    (∀ failFast,
      (t.sweep sink failFast supply m).1.Describes t (t.processed failFast supply.toList) ∧
      (t.sweep sink failFast supply m).2 =
        ((t.processed failFast supply.toList).filter t.violates).foldl
          (fun m v => sink.reach Oracle.location (t.violation v).text m) m) ∧
    t.processed false supply.toList = supply.toList ∧
    t.processed true supply.toList =
      supply.toList.takeWhile (fun v => !t.violates v) ++
        (supply.toList.find? t.violates).toList ∧
    (t.sweep sink true supply m).1.firstCounterexample =
      (t.sweep sink false supply m).1.firstCounterexample ∧
    ((t.sweep sink true supply m).1.violations = 0 ↔
      (t.sweep sink false supply m).1.violations = 0) := by
  have hleaves : t.leaves = derived.leaves := leaves_injectAll ht
  have hnodup : t.leaves.Nodup := hleaves ▸ nodup_leaves_derived
  have haccounts := fun failFast => t.accounts_sweep sink failFast supply m
  have hfirst : (t.sweep sink true supply m).1.firstCounterexample =
      (t.sweep sink false supply m).1.firstCounterexample := by
    rw [(haccounts true).first_eq, (haccounts false).first_eq, find?_processed, find?_processed]
  refine ⟨⟨hleaves ▸ length_leaves_derived, hnodup⟩, ?_, t.processed_false _, t.processed_true _,
    hfirst, ?_⟩
  · intro failFast
    have hseen := (t.processed_prefix failFast supply.toList).length_le
    refine ⟨(haccounts failFast).describes hnodup (Nat.lt_of_le_of_lt hseen hlen), ?_⟩
    rw [sweep, sweepFrom_eq, reachAll_eq]
  · rw [← (haccounts true).none_iff, ← (haccounts false).none_iff, hfirst]

/-- The published counterexample between two sextuples that are answered rightly: failing fast stops
behind it, and it is what both ways of sweeping name. -/
theorem sweep_report_ko2 :
    ∃ t supply, derived.injectAll [.ko2] = .ok t ∧
      supply.toList = [⟨0, 0, 0, 0, 0, 0⟩, ⟨1, -3, 0, -2, -1, -2⟩, ⟨5, 4, 3, 2, 1, 0⟩] ∧
      supply.toList.length < UInt64.size ∧
      ∀ failFast,
        (t.sweep Sink.recorder failFast supply #[]).1.cases = (if failFast then 2 else 3) ∧
        (t.sweep Sink.recorder failFast supply #[]).1.violations = 1 ∧
        (t.sweep Sink.recorder failFast supply #[]).1.firstCounterexample =
          some ⟨1, -3, 0, -2, -1, -2⟩ := by
  obtain ⟨t, ht⟩ : ∃ t, derived.injectAll [.ko2] = .ok t := ⟨_, rfl⟩
  obtain ⟨supply, hsupply⟩ : ∃ supply : Supply, supply.toList =
      [⟨0, 0, 0, 0, 0, 0⟩, ⟨1, -3, 0, -2, -1, -2⟩, ⟨5, 4, 3, 2, 1, 0⟩] :=
    ⟨_, Supply.toList_ofList _⟩
  have hlen : supply.toList.length < UInt64.size := by
    rw [hsupply]
    decide
  obtain ⟨-, hreport, -⟩ := sweep_report_exact ht hlen Sink.recorder #[]
  refine ⟨t, supply, ht, hsupply, hlen, fun failFast => ?_⟩
  have hdescribes := (hreport failFast).1
  rw [hsupply] at hdescribes
  cases ht
  refine ⟨hdescribes.cases_eq.trans ?_, hdescribes.violations_eq.trans ?_,
    hdescribes.first_eq.trans ?_⟩ <;> cases failFast <;> decide

end DecisionTree
end VerifierBench
