import VerifierBench.Report.Oracle
import VerifierBench.Source.Basic
import VerifierBench.Source.Grid

/-! Campaigns: running a decision tree on many sextuples, judging every answer and counting what
happened. -/
namespace VerifierBench

/-- One run: the inputs, the answer and the verdict on it. -/
structure CaseReport where
  inputs : Sextuple
  selection : Selection
  verdict : Verdict
  deriving DecidableEq, Repr

/-- How often each leaf was taken, in leaf order; a leaf that was never taken is absent. -/
abbrev Coverage := List (Leaf × Nat)

namespace Coverage

/-- Counts one more hit of a leaf. -/
def hit (l : Leaf) : Coverage → Coverage
  | [] => [(l, 1)]
  | (k, n) :: rest =>
    if k = l then (k, n + 1) :: rest
    else if l.rank < k.rank then (l, 1) :: (k, n) :: rest
    else (k, n) :: hit l rest

def hits (c : Coverage) (l : Leaf) : Nat :=
  match c.find? fun entry => entry.1 = l with
  | some (_, n) => n
  | none => 0

def covers (c : Coverage) (l : Leaf) : Bool := c.any fun entry => entry.1 = l

end Coverage

/-- What many runs of one tree came to. -/
structure CampaignReport where
  cases : Nat
  violations : Nat
  firstCounterexample : Option Sextuple
  coverage : Coverage
  deriving DecidableEq, Repr

namespace CampaignReport

def empty : CampaignReport := ⟨0, 0, none, []⟩

def isSuccess (r : CampaignReport) : Bool := r.violations == 0

def record (r : CampaignReport) (c : CaseReport) : CampaignReport :=
  { cases := r.cases + 1
    violations := if c.verdict.isHolds then r.violations else r.violations + 1
    firstCounterexample :=
      if c.verdict.isHolds then r.firstCounterexample
      else some (r.firstCounterexample.getD c.inputs)
    coverage := r.coverage.hit c.selection.leaf }

/-- The leaves of a tree that no run took. -/
def uncovered (r : CampaignReport) (t : DecisionTree) : List Leaf :=
  t.leaves.filter fun l => !r.coverage.covers l

end CampaignReport

namespace DecisionTree
variable {μ σ : Type}

/-- Runs the tree on six words and reports a violation. -/
def runOn (t : DecisionTree) (sink : Sink μ) (v : Sextuple) (m : μ) : CaseReport × μ :=
  let selection := t.select v
  let (verdict, m) := Oracle.check sink v selection.result m
  (⟨v, selection, verdict⟩, m)

/-- Runs the tree on six words drawn from a source. -/
def runOnce (t : DecisionTree) (source : Nondet σ) (sink : Sink μ) (s : σ) (m : μ) :
    Except Error (CaseReport × σ × μ) := do
  let (v, s) ← source.drawSextuple s
  let (report, m) := t.runOn sink v m
  return (report, s, m)

/-- Goes on with a sweep whose report so far is given. -/
def sweepFrom (t : DecisionTree) (sink : Sink μ) (failFast : Bool) :
    Supply → CampaignReport → μ → CampaignReport × μ
  | .done, r, m => (r, m)
  | .more v rest, r, m =>
    let (report, m) := t.runOn sink v m
    let r := r.record report
    if failFast && !report.verdict.isHolds then (r, m)
    else t.sweepFrom sink failFast (rest ()) r m

/-- Runs the tree on all sextuples of a supply, or up to the first violation. -/
def sweep (t : DecisionTree) (sink : Sink μ) (failFast : Bool) (supply : Supply) (m : μ) :
    CampaignReport × μ :=
  t.sweepFrom sink failFast supply .empty m

/-- Goes on with a campaign whose report so far is given. -/
def campaignFrom (t : DecisionTree) (source : Nondet σ) (sink : Sink μ) (failFast : Bool) :
    Nat → CampaignReport → σ → μ → Except Error (CampaignReport × σ × μ)
  | 0, r, s, m => .ok (r, s, m)
  | n + 1, r, s, m =>
    match t.runOnce source sink s m with
    | .error e => .error e
    | .ok (report, s, m) =>
      let r := r.record report
      if failFast && !report.verdict.isHolds then .ok (r, s, m)
      else t.campaignFrom source sink failFast n r s m

/-- Runs the tree on sextuples drawn one at a time: `cases` of them, or up to the first
violation. -/
def campaign (t : DecisionTree) (source : Nondet σ) (sink : Sink μ) (failFast : Bool)
    (cases : UInt64) (s : σ) (m : μ) : Except Error (CampaignReport × σ × μ) :=
  t.campaignFrom source sink failFast cases.toNat .empty s m

end DecisionTree
end VerifierBench
