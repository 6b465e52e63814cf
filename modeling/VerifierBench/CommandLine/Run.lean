import VerifierBench.Check.Service
import VerifierBench.Check.Text
import VerifierBench.CommandLine.Command
import VerifierBench.CommandLine.Inputs
import VerifierBench.Json.Printer
import VerifierBench.Report.File
import VerifierBench.Tree.Program

/-! Running the program: arguments and settings make a request, and its response is shown as text or
as JSON. Failures are logged and have an exit status of their own. -/
namespace VerifierBench.CommandLine

/-- What is to be done: something to be answered, or a text to be shown as it is. -/
inductive Task
  | answer (request : CheckRequest)
  | display (text : String)

/-- Interprets a command. Its arguments are read in order, so the first bad one decides the
error. -/
def Command.task (p : Preferences) : Command → Except Error Task
  | maxMin inputs fault => do
    let inputs ← readInputs inputs
    return .answer (.maxMin inputs (← readFault fault))
  | sweep min max fault failFast => do
    let min ← readOr Text.readInt32 p.sweepMin min
    let max ← readOr Text.readInt32 p.sweepMax max
    return .answer (.sweep min max (← readFault fault) (failFast || p.failFast))
  | random cases seed fault failFast => do
    let cases ← readOr Text.readUInt64 p.randomCases cases
    let seed ← readOr Text.readUInt64 p.randomSeed seed
    return .answer (.random cases seed (← readFault fault) (failFast || p.failFast))
  | loops none _ => .ok (.answer .allFixtures)
  | loops (some name) none => .ok (.answer (.fixture name none))
  | loops (some name) (some inputs) => do
    return .answer (.fixture name (some (← readWords inputs)))
  | tree fault => do
    let t ← CheckRequest.treeWith (← readFault fault)
    return .display t.text

/-- What a run leaves behind. -/
structure Outcome where
  exitStatus : Nat
  output : String
  errors : List String
  report : Option Report.Draft
  deriving DecidableEq, Repr

namespace Outcome

/-- The exit status of misuse and of failures. -/
def failureStatus : Nat := 2

def ofStop : Stop → Outcome
  | .misuse => ⟨failureStatus, "", [], none⟩
  | .version program => ⟨0, program ++ " \n", [], none⟩
  | .help => ⟨0, programName ++ " [--json] [--quiet] " ++
      "|".intercalate (Action.all.map Action.name) ++ " ...\n", [], none⟩

def ofError (cause : Error) : Outcome := ⟨failureStatus, "", [cause.message], none⟩

end Outcome

/-- The response as it is shown; JSON wins over silence. -/
def shown (json quiet : Bool) (r : CheckResponse) : String :=
  if json then r.toJson.pretty ++ "\n" else if quiet then "" else r.text

/-- Does what an invocation says. -/
def Invocation.perform (p : Preferences) (i : Invocation) : Except Error Outcome := do
  match ← i.command.task p with
  | .display text => return ⟨0, text, [], none⟩
  | .answer request =>
    let outcome ← request.perform p.iterationLimit
    return {
      exitStatus := outcome.response.result.exitCode
      output := shown (i.json || p.jsonOutput) (i.quiet || p.quiet) outcome.response
      errors := outcome.logged
      report := outcome.report.bind fun file =>
        Report.draft? p file.folder file.name file.content.pretty }

/-- A whole run. Settings among the arguments are taken out before the others are read. -/
def run (s : Surroundings) : Outcome :=
  match Invocation.read (Layer.remainingArguments s.arguments) with
  | .error stop => .ofStop stop
  | .ok invocation =>
    match invocation.perform (.ofSurroundings s) with
    | .ok outcome => outcome
    | .error cause => .ofError cause

end VerifierBench.CommandLine
