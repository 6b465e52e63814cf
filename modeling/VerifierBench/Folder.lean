import VerifierBench.Text.Fields

/-! A folder with its files and subfolders. Paths begin in it; what lies outside is only known to
consist of the folders that hold it. -/
namespace VerifierBench

/-- Files by path with their contents, and the paths of the folders below the root. -/
structure Folder where
  files : List (List String × String)
  folders : List (List String)
  deriving DecidableEq, Repr

namespace Folder

def parts (path : String) : List String := (Text.fields '/' path.toList).map String.ofList

def pathText (path : List String) : String := "/".intercalate path

/-- All proper prefixes of a path but the empty one. -/
def parents (path : List String) : List (List String) :=
  (List.range path.length).filterMap fun n => if n = 0 then none else some (path.take n)

def empty : Folder := ⟨[], []⟩

def isFile (d : Folder) (path : List String) : Bool := d.files.any fun entry => entry.1 = path

/-- The folders that hold this one are reached by steps upwards only. -/
def isOutward (path : List String) : Bool := path.all fun part => part = ".."

def isFolder (d : Folder) (path : List String) : Bool := isOutward path || d.folders.contains path

/-- The files inside. -/
def ownFiles (d : Folder) : List (List String × String) :=
  d.files.filter fun entry => entry.1.head? ≠ some ".."

/-- Parts of a path that lead nowhere else. -/
def isStill (part : String) : Bool := part = "" || part = "."

/-- Writes a file whose folder exists. -/
def put (d : Folder) (path : List String) (content : String) : Folder :=
  { d with files := (d.files.filter fun entry => entry.1 ≠ path) ++ [(path, content)] }

def ofFiles (files : List (String × String)) : Folder :=
  files.foldl (fun d (name, content) =>
    let path := (parts name).filter fun part => !isStill part
    { d.put path content with folders := d.folders ++ parents path }) empty

/-- Why nothing can be at a path: a folder on the way is missing, or the way is not passable, since
a file stands in it or a name cannot be a name. -/
inductive PathFault
  | missing
  | blocked
  deriving DecidableEq, Repr

def above (path : List String) : List String :=
  if isOutward path then path ++ [".."] else path.dropLast

/-- The bytes that a name may have. -/
def nameLimit : Nat := 255

/-- The bytes that a whole path may have. -/
def pathLimit : Nat := 4095

/-- Whether a path can be asked for at all. -/
def isPath (path : List String) : Bool :=
  (pathText path).utf8ByteSize ≤ pathLimit && path.all fun part => !part.toList.contains '\x00'

/-- Follows a path from some folder; every part but the last has to be a folder. -/
def follow (d : Folder) (path : List String) : List String → Except PathFault (List String)
  | [] => .ok path
  | part :: rest =>
    if d.isFile path then .error .blocked
    else if !d.isFolder path then .error .missing
    else if isStill part then d.follow path rest
    else if part = ".." then d.follow (above path) rest
    else if nameLimit < part.utf8ByteSize then .error .blocked
    else d.follow (path ++ [part]) rest

def isAbsolute (path : String) : Bool := path.startsWith "/"

def content? (d : Folder) (path : String) : Option String :=
  if isAbsolute path then none
  else do
    let path ← (d.follow [] (parts path)).toOption
    (d.files.find? fun entry => entry.1 = path).map Prod.snd

/-- Makes one folder, unless it is there. -/
def makeFolder (d : Folder) (path : List String) : Except PathFault Folder := do
  if !isPath path then .error .blocked
  else
    let place ← d.follow [] path
    if d.isFolder place then .ok d
    else if d.isFile place then .error .blocked
    else .ok { d with folders := d.folders ++ [place] }

/-- Makes a folder after the folder it lies in, where that is missing; the path of the latter is
given from its last part on. Tells whether the folder is there; what was made before a failure
stays. -/
def makeFolderIn (d : Folder) (path : List String) : List String → Folder × Bool
  | [] =>
    match d.makeFolder path with
    | .ok d => (d, true)
    | .error _ => (d, false)
  | part :: outer =>
    match d.makeFolder path with
    | .ok d => (d, true)
    | .error .blocked => (d, false)
    | .error .missing =>
      match d.makeFolderIn (part :: outer).reverse outer with
      | (d, false) => (d, false)
      | (d, true) =>
        match d.makeFolder path with
        | .ok d => (d, true)
        | .error _ => (d, false)

/-- Makes a folder and all folders on the way to it. The folder that a path lies in is that of its
last part other than a single point. -/
def makeFolders (d : Folder) (path : List String) : Folder × Bool :=
  let path := path.filter fun part => part ≠ ""
  d.makeFolderIn path ((path.filter fun part => !isStill part).reverse.drop 1)

end Folder

end VerifierBench
