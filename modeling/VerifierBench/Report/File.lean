import VerifierBench.Folder
import VerifierBench.Settings.Preferences

/-! Report files. A report goes to a group of reports below the log folder, under a portable
name. -/
namespace VerifierBench
namespace Report

/-- Portable file names: everything but ASCII letters, digits, `.`, `-` and `_` becomes `_`. -/
def sanitize (name : String) : String :=
  String.ofList (name.toList.map fun c =>
    if c.isAlphanum || c = '.' || c = '-' || c = '_' then c else '_')

def joinPath (outer inner : String) : String :=
  if outer.isEmpty || outer.endsWith "/" then outer ++ inner else outer ++ "/" ++ inner

/-- The path from the log folder on, without parts at its front that do not lead anywhere. -/
def shownPath (group fileName : String) : String :=
  Folder.pathText ((Folder.parts (joinPath group fileName)).dropWhile Folder.isStill)

def isFileName (name : String) : Bool :=
  !Folder.isStill name && name != ".." && name.utf8ByteSize ≤ Folder.nameLimit

/-- Writes a report into a folder that exists. -/
def writeInto (d : Folder) (path : List String) (fileName content : String) : Option Folder :=
  match d.follow [] (path ++ [fileName]) with
  | .error _ => none
  | .ok place =>
    if !isFileName fileName ∨ !Folder.isPath (path ++ [fileName]) ∨ d.isFolder place then none
    else some (d.put place content)

/-- Writes a report below `logDir` and makes its folder if needed. Gives none instead of the path
from `logDir` on if the report cannot be written; folders that were made stay. -/
def write (d : Folder) (logDir group name content : String) : Folder × Option String :=
  let folderName := joinPath logDir group
  if Folder.isAbsolute folderName then (d, none)
  else
    let path := Folder.parts folderName
    let fileName := sanitize name
    match d.makeFolders path with
    | (d, false) => (d, none)
    | (d, true) =>
      match writeInto d path fileName content with
      | none => (d, none)
      | some d => (d, some (shownPath group fileName))

/-- A report that is to be written. -/
structure Draft where
  logDir : String
  group : String
  name : String
  content : String
  deriving DecidableEq, Repr

/-- The report to write, if reports are wanted. -/
def draft? (p : Preferences) (group name content : String) : Option Draft :=
  if p.dumpReports then some ⟨p.logDir, group, name, content⟩ else none

/-- The folder after a report was written into it; a failure is ignored. -/
def Draft.writeTo (r : Draft) (d : Folder) : Folder :=
  (write d r.logDir r.group r.name r.content).1

end Report
end VerifierBench
