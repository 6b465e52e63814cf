import VerifierBench.Campaign
import VerifierBench.Fixture.Basic
import VerifierBench.Wire.Loop
import VerifierBench.Wire.Tree

/-! What is answered: a result with its details. -/
namespace VerifierBench
open Json

structure LeafCoverage where
  leaf : String
  hits : Nat
  deriving DecidableEq, Repr

/-- A campaign together with the tree it ran on, ready to be shown. -/
structure CampaignSummary where
  fault : Option String
  cases : Nat
  violations : Nat
  firstCounterexample : Option Sextuple
  coverage : List LeafCoverage
  uncovered : List String
  deriving DecidableEq, Repr

/-- The verdict on a fixture compared with its expectation. -/
structure FixtureOutcome where
  name : String
  expectation : Expectation
  result : CheckResult
  asExpected : Bool
  deriving DecidableEq, Repr

inductive CheckDetails
  | singleCase (report : CaseReport)
  | campaign (summary : CampaignSummary)
  | fixtures (outcomes : List FixtureOutcome)
  deriving DecidableEq, Repr

structure CheckResponse where
  result : CheckResult
  details : CheckDetails
  deriving DecidableEq, Repr

def CaseReport.toJson (c : CaseReport) : Json :=
  obj [("inputs", c.inputs.toJson), ("selection", c.selection.toJson),
    ("verdict", c.verdict.toJson)]

/-- The coverage is not part of the JSON form. -/
def CampaignReport.toJson (r : CampaignReport) : Json :=
  obj [("cases", ofNat r.cases), ("violations", ofNat r.violations),
    ("first_counterexample", ofOption Sextuple.toJson r.firstCounterexample)]

def LeafCoverage.toJson (c : LeafCoverage) : Json :=
  obj [("leaf", str c.leaf), ("hits", ofNat c.hits)]

namespace CampaignSummary

def ofReport (t : DecisionTree) (r : CampaignReport) : CampaignSummary where
  fault := t.fault.map Fault.text
  cases := r.cases
  violations := r.violations
  firstCounterexample := r.firstCounterexample
  coverage := r.coverage.map fun (leaf, hits) => ⟨leaf.text, hits⟩
  uncovered := (r.uncovered t).map Leaf.text

def toJson (s : CampaignSummary) : Json :=
  obj [("fault", ofOption str s.fault), ("cases", ofNat s.cases),
    ("violations", ofNat s.violations),
    ("first_counterexample", ofOption Sextuple.toJson s.firstCounterexample),
    ("coverage", Json.ofList LeafCoverage.toJson s.coverage),
    ("uncovered", ofStrings s.uncovered)]

end CampaignSummary

namespace FixtureOutcome

def ofResult (x : Fixture) (r : CheckResult) : FixtureOutcome :=
  ⟨x.name, x.expectation, r, x.isAsExpected r⟩

def toJson (o : FixtureOutcome) : Json :=
  obj [("name", str o.name), ("expectation", o.expectation.toJson), ("result", o.result.toJson),
    ("as_expected", .bool o.asExpected)]

end FixtureOutcome

namespace CheckDetails

def kind : CheckDetails → String
  | singleCase _ => "case"
  | campaign _ => "campaign"
  | fixtures _ => "fixtures"

def toJson : CheckDetails → Json
  | singleCase c => obj [("Case", c.toJson)]
  | campaign s => obj [("Campaign", s.toJson)]
  | fixtures os => obj [("Fixtures", Json.ofList FixtureOutcome.toJson os)]

end CheckDetails

namespace CheckResponse

def toJson (r : CheckResponse) : Json :=
  obj [("result", r.result.toJson), ("details", r.details.toJson)]

end CheckResponse
end VerifierBench
