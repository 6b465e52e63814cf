import VerifierBench.Folder
import VerifierBench.Json.Reader
import VerifierBench.Settings.Value
import VerifierBench.Toml.Reader

/-! Layered settings: defaults, files, the environment and the command line. The last layer that
defines a name decides, even if its value is malformed for the type that is asked for. -/
namespace VerifierBench

/-- Names with values; of several entries for one name the last one counts. -/
abbrev Layer := List (String × SettingValue)

/-- The layers in the order in which they were added. -/
structure Settings where
  layers : List Layer
  deriving DecidableEq, Repr

/-- Setting names do not depend on letter case. A name that can be looked up has ASCII letters only,
and besides `A` to `Z` only the Kelvin sign has one of them as its lower-case form. -/
def foldName (s : String) : String :=
  String.ofList (s.toList.map fun c => if c.toNat = 0x212A then 'k' else c.toLower)

/-- The characters of names that can be looked up. -/
def isNameChar (c : Char) : Bool := c.isAlphanum || c = ' ' || c = '_' || c = '-'

def isName (s : String) : Bool := !s.isEmpty && s.toList.all isNameChar

namespace Layer

/-- The value of the last entry for a name. -/
def value? (l : Layer) (name : String) : Option SettingValue :=
  (l.reverse.find? fun entry => entry.1 = name).map Prod.snd

/-- The entries of a file. A table is merged with what is below it, so one without entries defines
nothing; of other tables only that they are tables is kept. -/
def ofEntries (entries : List (String × SettingValue)) : Layer :=
  entries.filter fun entry => entry.2 ≠ .table true

end Layer

namespace Settings

/-- The value that the last layer defining a name gives it. -/
def value? (s : Settings) (name : String) : Option SettingValue :=
  s.layers.reverse.findSome? fun l => l.value? name

/-- A setting of some type; none if it is missing or malformed. -/
def lookup {α : Type} (convert : SettingValue → Option α) (s : Settings) (name : String) :
    Option α :=
  let name := foldName name
  if isName name then (s.value? name).bind convert else none

end Settings

namespace Layer

/-- The values that hold if nothing else is said. -/
def defaults : Layer :=
  [ ("log_dir", .text "./log/"), ("dump_reports", .bool false), ("quiet", .bool false),
    ("json_output", .bool false), ("sweep_min", .int (-2)), ("sweep_max", .int 2),
    ("random_cases", .int 10000), ("random_seed", .int 0), ("iteration_limit", .int 1000000),
    ("fail_fast", .bool false) ]

/-- Variables that are not empty and whose names begin with `BENCH_`, in any letter case. -/
def ofEnvironment (environment : List (String × String)) : Layer :=
  environment.filterMap fun (name, value) =>
    if value.isEmpty then none
    else (Text.dropStart "bench_".toList (foldName name).toList).map fun key =>
      (String.ofList key, .text value)

/-- The key and the value of an argument `-P<key>=<value>`; neither may be empty, and the value may
hold further equals signs. -/
def settingOf? (argument : String) : Option (String × String) := do
  let rest ← Text.dropStart "-P".toList argument.toList
  let (key, value) ← Text.cut '=' rest
  if key.isEmpty || value.isEmpty then none
  else some (String.ofList key, String.ofList value)

/-- The settings among the arguments; other arguments are skipped. -/
def ofArguments (arguments : List String) : Layer :=
  arguments.filterMap fun a => (settingOf? a).map fun (key, value) => (foldName key, .text value)

/-- The arguments that are not settings. -/
def remainingArguments (arguments : List String) : List String :=
  arguments.filter fun a => (settingOf? a).isNone

/-- The settings of arguments that all have to be settings; gives the first one that is not. -/
def ofSettingArguments (arguments : List String) : Except String Layer :=
  match remainingArguments arguments with
  | [] => .ok (ofArguments arguments)
  | a :: _ => .error a

inductive Format
  | toml
  | json
  deriving DecidableEq, Repr

/-- The text after the last point of a file name, unless that point comes first. -/
def extension (path : String) : String :=
  let name := (Folder.parts path).getLastD ""
  match (Text.fields '.' name.toList).reverse with
  | last :: _ :: _ =>
    if last.length + 1 = name.length then "" else String.ofList last
  | _ => ""

def Format.ofExtension? (e : String) : Option Format :=
  if e = "toml" then some .toml else if e = "json" then some .json else none

/-- A path with an extension added to its file name; slashes and single points behind the name are
left out. A path that ends in a step upwards has no file name. -/
def withExtension? (path e : String) : Option String :=
  let parts := ((Folder.parts path).reverse.dropWhile Folder.isStill).reverse
  match parts.getLast? with
  | none => none
  | some name => if name = ".." then none else some (Folder.pathText parts ++ "." ++ e)

/-- The paths at which the file of a path is looked for. -/
def candidates (path : String) : List String :=
  path :: ["toml", "json"].filterMap (withExtension? path)

/-- The file of a path, or of the path with an extension added. A file of an unknown format counts
as missing. -/
def locate (content? : String → Option String) (path : String) : Option (Format × String) :=
  match content? path with
  | some content => (Format.ofExtension? (extension path)).map (·, content)
  | none =>
    match (withExtension? path "toml").bind content?, (withExtension? path "json").bind content? with
    | some content, _ => some (.toml, content)
    | none, some content => some (.json, content)
    | none, none => none

/-- The setting value of a JSON value. Integers beyond the 64-bit signed range are doubles. -/
def valueOfJson : Json → SettingValue
  | .null => .null
  | .bool b => .bool b
  | .int n => if isInt64 n then .int n else .real (.ofDecimal false n.toNat 0)
  | .real x => .real x
  | .str s => .text s
  | .arr _ => .list
  | .obj members => .table members.isEmpty

/-- The setting value of a TOML value. Dates and times are texts. -/
def valueOfToml : Toml.Value → SettingValue
  | .bool b => .bool b
  | .int n => .int n
  | .real x => .real x
  | .text s => .text s
  | .moment m => .text m.text
  | .list _ => .list
  | .tables _ => .list
  | .table _ entries => .table entries.isEmpty

/-- The layer of a file's text. A JSON text that is not an object has no entries. -/
def ofFileText? (format : Format) (text : String) : Option Layer :=
  match format with
  | .toml => (Toml.read text).map fun t => ofEntries (t.map fun (k, v) => (k, valueOfToml v))
  | .json =>
    match Json.read text with
    | none => none
    | some (.obj members) => some (ofEntries (members.map fun (k, v) => (k, valueOfJson v)))
    | some _ => some []

/-- The layer of a file that may be missing. -/
def ofFile? (content? : String → Option String) (path : String) : Option Layer :=
  match locate content? path with
  | none => some []
  | some (format, text) => ofFileText? format text

end Layer

/-- What settings are made from: arguments, environment variables, and the contents of the files
that can be read. -/
structure Surroundings where
  arguments : List String
  environment : List (String × String)
  content? : String → Option String

namespace Surroundings

/-- The settings file that is always looked for. -/
def commonFile : String := "Bench.toml"

/-- The path of a further settings file, if one is named. -/
def chosenFile? (environment : List (String × String)) : Option String :=
  ((environment.find? fun entry => entry.1 = "BENCH_CONFIG").map Prod.snd).filter fun path =>
    !path.isEmpty

/-- All layers; none if a file cannot be read as settings. -/
def settings? (s : Surroundings) : Option Settings := do
  let common ← Layer.ofFile? s.content? commonFile
  let chosen ← match chosenFile? s.environment with
    | none => some []
    | some path => Layer.ofFile? s.content? path
  return ⟨[.defaults, common, chosen, .ofEnvironment s.environment, .ofArguments s.arguments]⟩

end Surroundings
end VerifierBench
