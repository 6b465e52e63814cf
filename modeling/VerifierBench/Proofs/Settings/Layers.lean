import VerifierBench.Proofs.Text.Fields
import VerifierBench.Settings.Layers

/-! Entries of layers. A layer is read off lines - arguments, variables, the entries of a file -
some of which give a name a value; the last one that does so counts. -/
namespace VerifierBench

/-- The last line that gives a name a value gives it this one. -/
def LastEntry {α : Type} (setting? : α → Option (String × SettingValue)) (lines : List α)
    (name : String) (v : SettingValue) : Prop :=
  ∃ before line after, lines = before ++ line :: after ∧ setting? line = some (name, v) ∧
    ∀ later ∈ after, ∀ w, setting? later ≠ some (name, w)

namespace Layer
variable {α : Type} {setting? : α → Option (String × SettingValue)} {lines : List α} {l l' : Layer}
  {name : String} {v : SettingValue}

lemma value?_cons (l : Layer) (entry : String × SettingValue) (name : String) :
    value? (entry :: l) name =
      (l.value? name).or (if entry.1 = name then some entry.2 else none) := by
  simp only [value?, List.reverse_cons, List.find?_append]
  cases l.reverse.find? fun entry => entry.1 = name with
  | some entry => rfl
  | none => by_cases h : entry.1 = name <;> simp [h]

lemma value?_eq_none_iff : l.value? name = none ↔ ∀ v, (name, v) ∉ l := by
  simp only [value?, Option.map_eq_none_iff, List.find?_eq_none, List.mem_reverse,
    decide_eq_true_eq]
  constructor
  · intro h v hv
    exact h _ hv rfl
  · rintro h entry hentry rfl
    exact h entry.2 hentry

/-- Only the entries for a name decide on its value. -/
lemma value?_filter (l : Layer) (name : String) :
    value? (l.filter fun entry => entry.1 = name) name = l.value? name := by
  rw [value?, value?, ← List.filter_reverse, List.find?_filter]
  simp

lemma value?_filterMap_eq_none_iff : value? (lines.filterMap setting?) name = none ↔
    ∀ line ∈ lines, ∀ w, setting? line ≠ some (name, w) := by
  simp only [value?_eq_none_iff, List.mem_filterMap, not_exists, not_and]
  exact forall_comm.trans (forall_congr' fun _ => forall_comm)

lemma lastEntry_cons {line : α} : LastEntry setting? (line :: lines) name v ↔
    LastEntry setting? lines name v ∨
      setting? line = some (name, v) ∧ ∀ later ∈ lines, ∀ w, setting? later ≠ some (name, w) := by
  constructor
  · rintro ⟨before, last, after, hlines, hlast, hafter⟩
    cases before with
    | nil =>
      cases hlines
      exact .inr ⟨hlast, hafter⟩
    | cons _ before =>
      cases hlines
      exact .inl ⟨before, last, after, rfl, hlast, hafter⟩
  · rintro (⟨before, last, after, rfl, hlast⟩ | hline)
    · exact ⟨line :: before, last, after, rfl, hlast⟩
    · exact ⟨[], line, lines, rfl, hline⟩

/-- The value of a name is that of the last line that gives it one. -/
theorem value?_filterMap_eq_some_iff :
    value? (lines.filterMap setting?) name = some v ↔ LastEntry setting? lines name v := by
  induction lines with
  | nil => simp [value?, LastEntry]
  | cons line lines ih =>
    rw [lastEntry_cons, ← ih, ← value?_filterMap_eq_none_iff, List.filterMap_cons]
    cases setting? line with
    | none => simp
    | some entry =>
      simp only [value?_cons, Option.some.injEq, Prod.ext_iff]
      cases value? (lines.filterMap setting?) name with
      | some w => simp
      | none => by_cases hname : entry.1 = name <;> simp [hname]

end Layer

namespace Layer
variable {argument key text name : String} {arguments : List String} {fold : String → String}
  {v : SettingValue}

/-- The argument sets a key to a text: both stand behind the prefix, at either side of the first
equals sign, and neither is empty. -/
def IsSetting (argument key text : String) : Prop :=
  argument = "-P" ++ key ++ "=" ++ text ∧ '=' ∉ key.toList ∧ key ≠ "" ∧ text ≠ ""

lemma settingOf?_eq_some_iff :
    settingOf? argument = some (key, text) ↔ IsSetting argument key text := by
  constructor
  · intro h
    obtain ⟨rest, hrest, hfound⟩ := Option.bind_eq_some_iff.mp h
    obtain ⟨⟨before, after⟩, hcut, hparts⟩ := Option.bind_eq_some_iff.mp hfound
    obtain ⟨rfl, hsep⟩ := Text.cut_eq_some hcut
    have hargument := Text.dropStart_eq_some hrest
    dsimp only at hparts
    split at hparts
    · cases hparts
    · next hne =>
      cases hparts
      simp only [Bool.or_eq_true, List.isEmpty_iff, not_or] at hne
      refine ⟨String.toList_inj.mp ?_, ?_, ?_, ?_⟩
      · simpa using hargument
      · simpa using hsep
      · simpa using hne.1
      · simpa using hne.2
  · rintro ⟨rfl, hkey, hne, htext⟩
    have hstart : ("-P" ++ key ++ "=" ++ text).toList =
        "-P".toList ++ (key.toList ++ '=' :: text.toList) := by simp
    rw [settingOf?, hstart, Text.dropStart_append]
    simp [Text.cut_append hkey, hne, htext]

/-- The entry that an argument makes, with its key written as `fold` writes it. -/
def entryBy (fold : String → String) (argument : String) : Option (String × SettingValue) :=
  (settingOf? argument).map fun (key, text) => (fold key, .text text)

lemma entryBy_eq_some_iff : entryBy fold argument = some (name, v) ↔
    ∃ key text, IsSetting argument key text ∧ fold key = name ∧ v = .text text := by
  simp only [entryBy, Option.map_eq_some_iff, Prod.exists, settingOf?_eq_some_iff, Prod.mk.injEq]
  simp only [eq_comm]

/-- The last argument that sets a name, with keys written as `fold` writes them, sets it to this text. -/
def LastSetting (fold : String → String) (arguments : List String) (name : String)
    (v : SettingValue) : Prop :=
  ∃ before argument after key text, arguments = before ++ argument :: after ∧
    IsSetting argument key text ∧ fold key = name ∧ v = .text text ∧
    ∀ later ∈ after, ∀ key text, IsSetting later key text → fold key ≠ name

lemma value?_entries_eq_some_iff :
    value? (arguments.filterMap (entryBy fold)) name = some v ↔
      LastSetting fold arguments name v := by
  rw [value?_filterMap_eq_some_iff]
  constructor
  · rintro ⟨before, argument, after, harguments, hargument, hlast⟩
    obtain ⟨key, text, hset, hkey, hv⟩ := entryBy_eq_some_iff.mp hargument
    refine ⟨before, argument, after, key, text, harguments, hset, hkey, hv, ?_⟩
    intro later hlater key' text' hset' hkey'
    exact hlast later hlater _ (entryBy_eq_some_iff.mpr ⟨key', text', hset', hkey', rfl⟩)
  · rintro ⟨before, argument, after, key, text, harguments, hset, hkey, hv, hlast⟩
    refine ⟨before, argument, after, harguments,
      entryBy_eq_some_iff.mpr ⟨key, text, hset, hkey, hv⟩, ?_⟩
    intro later hlater w hw
    obtain ⟨key', text', hset', hkey', -⟩ := entryBy_eq_some_iff.mp hw
    exact hlast later hlater key' text' hset' hkey'

/-- The setting that an argument makes. -/
def ofArgument? (argument : String) : Option (String × SettingValue) :=
  (settingOf? argument).map fun (key, text) => (foldName key, .text text)

lemma ofArguments_eq (arguments : List String) :
    ofArguments arguments = arguments.filterMap ofArgument? := rfl

/-- The setting that an environment variable makes. -/
def ofVariable? (entry : String × String) : Option (String × SettingValue) :=
  if entry.2.isEmpty then none
  else (Text.dropStart "bench_".toList (foldName entry.1).toList).map fun key =>
    (String.ofList key, .text entry.2)

lemma ofEnvironment_eq (environment : List (String × String)) :
    ofEnvironment environment = environment.filterMap ofVariable? := rfl

lemma ofVariable?_eq_some_iff {entry : String × String} : ofVariable? entry = some (name, v) ↔
    foldName entry.1 = "bench_" ++ name ∧ entry.2 ≠ "" ∧ v = .text entry.2 := by
  rw [ofVariable?]
  constructor
  · intro h
    split at h
    · cases h
    · next hne =>
      obtain ⟨key, hkey, hpair⟩ := Option.map_eq_some_iff.mp h
      cases hpair
      refine ⟨String.toList_inj.mp ?_, by simpa using hne, rfl⟩
      simpa using Text.dropStart_eq_some hkey
  · rintro ⟨hname, hne, rfl⟩
    have hstart : (foldName entry.1).toList = "bench_".toList ++ name.toList := by simp [hname]
    rw [hstart, Text.dropStart_append]
    simp [hne]

/-- The entries of a file's text, those of tables without entries among them. -/
def entriesOfText? (format : Format) (text : String) : Option (List (String × SettingValue)) :=
  match format with
  | .toml => (Toml.read text).map fun t => t.map fun (k, v) => (k, valueOfToml v)
  | .json =>
    match Json.read text with
    | none => none
    | some (.obj members) => some (members.map fun (k, v) => (k, valueOfJson v))
    | some _ => some []

/-- The entries of a file that may be missing. -/
def entriesOfFile? (content? : String → Option String) (path : String) :
    Option (List (String × SettingValue)) :=
  match locate content? path with
  | none => some []
  | some (format, text) => entriesOfText? format text

lemma ofFileText?_eq_map (format : Format) (text : String) :
    ofFileText? format text = (entriesOfText? format text).map ofEntries := by
  cases format with
  | toml =>
    rw [ofFileText?, entriesOfText?, Option.map_map]
    rfl
  | json =>
    rw [ofFileText?, entriesOfText?]
    cases Json.read text with
    | none => rfl
    | some json => cases json <;> rfl

lemma ofFile?_eq_map (content? : String → Option String) (path : String) :
    ofFile? content? path = (entriesOfFile? content? path).map ofEntries := by
  rw [ofFile?, entriesOfFile?]
  cases locate content? path with
  | none => rfl
  | some located => exact ofFileText?_eq_map located.1 located.2

lemma ofEntries_eq (entries : List (String × SettingValue)) :
    ofEntries entries = entries.filterMap (Option.guard fun entry => entry.2 ≠ .table true) := by
  rw [List.filterMap_eq_filter]
  rfl

end Layer
end VerifierBench
