import VerifierBench.CommandLine.Run

/-! The program: collects its surroundings, runs, and writes what the run leaves behind. -/
namespace VerifierBench.CommandLine

def readContent? (path : String) : IO (Option String) :=
  try some <$> IO.FS.readFile path catch _ => return none

/-- All environment variables, where the system lists them in a file. -/
def readVariables : IO (List (String × String)) := do
  let entries := (← readContent? "/proc/self/environ").getD ""
  return (Text.fields (Char.ofNat 0) entries.toList).filterMap fun entry =>
    (Text.cut '=' entry).map fun (name, value) => (String.ofList name, String.ofList value)

/-- The contents of all files that may hold settings. -/
def readSettingFiles (environment : List (String × String)) : IO (List (String × String)) := do
  let paths := Surroundings.commonFile :: (Surroundings.chosenFile? environment).toList
  let contents ← (paths.flatMap Layer.candidates).mapM fun path => do
    return (← readContent? path).map fun content => (path, content)
  return contents.filterMap id

/-- Writes a report; a failure is ignored. -/
def writeReport (r : Report.Draft) : IO Unit := do
  let folder := Report.joinPath r.logDir r.group
  try
    IO.FS.createDirAll folder
    IO.FS.writeFile (Report.joinPath folder (Report.sanitize r.name)) r.content
  catch _ => return ()

/-- Runs the program on its arguments and gives its exit status. -/
def runProgram (arguments : List String) : IO UInt32 := do
  let environment ← readVariables
  let files ← readSettingFiles environment
  let outcome := run ⟨arguments, environment, fun path => files.lookup path⟩
  for line in outcome.errors do IO.eprintln line
  IO.print outcome.output
  match outcome.report with
  | some r => writeReport r
  | none => pure ()
  return outcome.exitStatus.toUInt32

end VerifierBench.CommandLine

def main (arguments : List String) : IO UInt32 :=
  VerifierBench.CommandLine.runProgram arguments
