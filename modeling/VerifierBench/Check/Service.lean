import VerifierBench.Check.Request
import VerifierBench.Check.Response
import VerifierBench.Fixture.Catalogue
import VerifierBench.Tree.Injection

/-! Answering requests. -/
namespace VerifierBench

/-- A file that a check leaves behind when reports are wanted. -/
structure ReportFile where
  folder : String
  name : String
  content : Json

/-- A response, the lines logged on the way, and the report on it. -/
structure CheckOutcome where
  response : CheckResponse
  logged : List String
  report : Option ReportFile

namespace CheckRequest

/-- Every so many words a random campaign takes a boundary word. -/
def boundaryPeriod : Nat := 4

def randomSource (seed : UInt64) : Source :=
  .mix (.seeded seed none) .boundary boundaryPeriod

/-- The correct tree with a fault, if there is one. -/
def treeWith : Option Fault → Except Error DecisionTree
  | none => .ok .derived
  | some f => DecisionTree.derived.inject f

/-- The outcome of a campaign whose violations were recorded. -/
def campaignOutcome (t : DecisionTree) (r : CampaignReport) (records : Array Record)
    (fileName : String) : CheckOutcome :=
  let summary := CampaignSummary.ofReport t r
  { response := ⟨.ofRecords records.toList, .campaign summary⟩
    logged := []
    report := some ⟨"campaigns", fileName, summary.toJson⟩ }

/-- The fixtures whose verdict is not the expected one, as reports. -/
def mismatches (outcomes : List (Fixture × FixtureOutcome)) : List Record :=
  (outcomes.filter fun (_, o) => !o.asExpected).map fun (x, o) =>
    ⟨x.location.text,
      "expected " ++ o.expectation.text ++ ", got exit status " ++ toString o.result.exitCode⟩

def checkFixtures (limit : UInt64) : List Fixture → Except Error (List (Fixture × FixtureOutcome))
  | [] => .ok []
  | x :: xs => do
    let r ← x.checkOn none limit
    return (x, .ofResult x r) :: (← checkFixtures limit xs)

/-- Answers a request; loops of at most `limit` additions are cross-checked. -/
def perform (limit : UInt64) : CheckRequest → Except Error CheckOutcome
  | maxMin inputs fault => do
    let t ← treeWith fault
    let (report, records, lines) :=
      t.runOn (.tee (.onFirst .recorder) (.onSecond .logger)) inputs (#[], #[])
    return { response := ⟨.ofRecords records.toList, .singleCase report⟩
             logged := lines.toList
             report := none }
  | sweep min max fault failFast =>
    let grid := Grid.between min max
    if grid.isEmpty || grid.checkedSize.isNone then .error (.invalidDomain min max)
    else do
      let t ← treeWith fault
      let (report, records) := t.sweep .recorder failFast (.ofGrid grid) #[]
      return campaignOutcome t report records
        ("sweep_" ++ wordText min ++ "_" ++ wordText max ++ ".json")
  | random cases seed fault failFast => do
    let t ← treeWith fault
    let (report, _, records) ←
      t.campaign Source.nondet .recorder failFast cases (randomSource seed) #[]
    return campaignOutcome t report records ("random_" ++ toString seed.toNat ++ ".json")
  | fixture name inputs => do
    let x ← Fixture.find name
    let r ← x.checkOn inputs limit
    return { response := ⟨r, .fixtures [.ofResult x r]⟩, logged := [], report := none }
  | allFixtures => do
    let checked ← checkFixtures limit Fixture.all
    let outcomes := checked.map Prod.snd
    return { response := ⟨.ofRecords (mismatches checked), .fixtures outcomes⟩
             logged := []
             report := some ⟨"fixtures", "all.json", Json.ofList FixtureOutcome.toJson outcomes⟩ }

def respond (limit : UInt64) (r : CheckRequest) : Except Error CheckResponse :=
  (r.perform limit).map CheckOutcome.response

end CheckRequest
end VerifierBench
