import VerifierBench.Check.Response

/-! Responses for people to read, one finding a line. -/
namespace VerifierBench

/-- A text filled up with blanks on the right to a width. -/
def padRight (width : Nat) (s : String) : String :=
  s ++ String.ofList (List.replicate (width - s.length) ' ')

/-- Lines, each with its line end. -/
def linesText (lines : List String) : String :=
  String.join (lines.map fun l => l ++ "\n")

def CheckResult.describe : CheckResult → String
  | holds => "error location unreachable"
  | violated records => "error location reached (" ++ toString records.length ++ " report(s))"
  | invalidFixture reason => "not runnable: " ++ reason

def CaseReport.lines (c : CaseReport) : List String :=
  [ "maxmin6(" ++ c.inputs.text ++ ") = " ++ c.selection.result.text ++ " [leaf " ++
      c.selection.leaf.text ++ "]",
    match c.verdict with
    | .holds => "postcondition holds"
    | .violated v => v.text ]

def CampaignSummary.lines (s : CampaignSummary) : List String :=
  (s.fault.toList.map fun f => "fault: " ++ f) ++
    [ "checked " ++ toString s.cases ++ " case(s), " ++ toString s.violations ++
        " violation(s)" ] ++
    (s.firstCounterexample.toList.map fun v => "first counterexample: (" ++ v.text ++ ")") ++
    [ "coverage: " ++ toString s.coverage.length ++ "/" ++
        toString (s.coverage.length + s.uncovered.length) ++ " leaves" ] ++
    (s.coverage.map fun c => "    " ++ padRight 14 c.leaf ++ " " ++ toString c.hits) ++
    (s.uncovered.map fun l => "    " ++ padRight 14 l ++ " never reached")

def FixtureOutcome.line (o : FixtureOutcome) : String :=
  o.name ++ ": expected " ++ o.expectation.text ++ ", " ++ o.result.describe ++ " [" ++
    (if o.asExpected then "ok" else "MISMATCH") ++ "]"

def CheckDetails.lines : CheckDetails → List String
  | singleCase c => c.lines
  | campaign s => s.lines
  | fixtures os => os.map FixtureOutcome.line

/-- The findings and then the result. -/
def CheckResponse.text (r : CheckResponse) : String :=
  linesText (r.details.lines ++ ["result: " ++ r.result.describe])

end VerifierBench
