import Mathlib.Data.Nat.Notation
import Mathlib.Tactic.ByContra
import VerifierBench.Proofs.Settings.Layers

/-! Precedence of settings. What a layer says about a name is put in terms of the arguments,
variables and files themselves; the last layer that says anything decides on its own, whatever the
others hold. -/
namespace VerifierBench

/-- The layers of settings, in the order in which they are added. -/
inductive SettingLayer
  | defaults | common | chosen | environment | arguments
  deriving DecidableEq, Repr

namespace SettingLayer

def all : List SettingLayer := [defaults, common, chosen, environment, arguments]

def place : SettingLayer → ℕ
  | defaults => 0 | common => 1 | chosen => 2 | environment => 3 | arguments => 4

lemma mem_all (k : SettingLayer) : k ∈ all := by cases k <;> decide

lemma ordered_all : all.Pairwise fun j k => j.place < k.place := by decide

lemma place_lt (k : SettingLayer) : k.place < 5 := by cases k <;> decide

end SettingLayer

namespace Settings
variable {before after : List Layer} {l : Layer} {n : String} {v : SettingValue}

lemma value?_of_last (h : l.value? n = some v) (hafter : ∀ later ∈ after, later.value? n = none) :
    value? ⟨before ++ l :: after⟩ n = some v := by
  have hskip : after.reverse.findSome? (fun later => later.value? n) = none := by
    simpa [List.findSome?_eq_none_iff] using hafter
  simp [value?, List.findSome?_append, hskip, h]

lemma value?_eq_none_iff {layers : List Layer} :
    value? ⟨layers⟩ n = none ↔ ∀ l ∈ layers, l.value? n = none := by
  simp [value?, List.findSome?_eq_none_iff]

end Settings

/-- The last entry of a file for a name that is not a table without entries. -/
def Layer.FileDefines (entries : List (String × SettingValue)) (n : String) (v : SettingValue) :
    Prop :=
  ∃ before after, entries = before ++ (n, v) :: after ∧ v ≠ .table true ∧
    ∀ w, (n, w) ∈ after → w = .table true

/-- Whether a key is the name of one setting. With a point or a bracket in it, it would be read as a
path into another one. -/
def isFlat (key : String) : Bool := key.toList.all fun c => c ≠ '.' && c ≠ '['

namespace Layer
variable {content? : String → Option String} {path : String}

/-- The file of a path is found under this extension: its own, or, if nothing is at the path, one that
is added to it. -/
def FoundAs (content? : String → Option String) (path e : String) : Prop :=
  match content? path with
  | some _ => e = extension path
  | none => ((withExtension? path e).bind content?).isSome

/-- The file of a path is found under one extension at most, and that is one of TOML or JSON. -/
structure FoundOnce (content? : String → Option String) (path : String) : Prop where
  format : ∀ e, FoundAs content? path e → (Format.ofExtension? e).isSome
  single : ∀ e e', FoundAs content? path e → FoundAs content? path e' → e = e'

lemma foundOnce_of_present (hpath : (content? path).isSome)
    (hformat : (Format.ofExtension? (extension path)).isSome) : FoundOnce content? path := by
  obtain ⟨text, htext⟩ := Option.isSome_iff_exists.mp hpath
  have hfound : ∀ e, FoundAs content? path e ↔ e = extension path := fun e => by
    rw [FoundAs, htext]
  refine ⟨fun e he => ?_, fun e e' he he' => ?_⟩
  · rwa [(hfound e).mp he]
  · exact ((hfound e).mp he).trans ((hfound e').mp he').symm

/-- No file is found where there are none. -/
lemma foundOnce_of_missing (path : String) : FoundOnce (fun _ => none) path :=
  ⟨fun e h => by simp [FoundAs] at h, fun e e' h => by simp [FoundAs] at h⟩

end Layer

namespace Surroundings
variable {s s' : Surroundings} {n : String} {k : SettingLayer} {v : SettingValue}

def commonEntries? (s : Surroundings) : Option (List (String × SettingValue)) :=
  Layer.entriesOfFile? s.content? commonFile

/-- The entries of the further settings file, if one is named. -/
def chosenEntries? (s : Surroundings) : Option (List (String × SettingValue)) :=
  match chosenFile? s.environment with
  | none => some []
  | some path => Layer.entriesOfFile? s.content? path

/-- The paths of the settings files. -/
def files (s : Surroundings) : List String := commonFile :: (chosenFile? s.environment).toList

/-- The entries of both files. -/
def fileEntries (s : Surroundings) : List (String × SettingValue) :=
  s.commonEntries?.getD [] ++ s.chosenEntries?.getD []

/-- The keys that the files, variables and arguments set. -/
def keys (s : Surroundings) : List String :=
  (s.fileEntries ++ Layer.ofEnvironment s.environment ++ Layer.ofArguments s.arguments).map Prod.fst

/-- The surroundings that settings are worked out for. Both files can be read as settings and are found
in one way, no key is a path into another setting, and no two variables for settings differ in letter
case only. -/
structure Readable (s : Surroundings) : Prop where
  common : s.commonEntries?.isSome
  chosen : s.chosenEntries?.isSome
  found : ∀ path ∈ s.files, Layer.FoundOnce s.content? path
  flat : ∀ key ∈ s.keys, isFlat key = true
  distinct : ∀ x ∈ s.environment, ∀ y ∈ s.environment, ∀ n,
    foldName x.1 = "bench_" ++ n → foldName y.1 = "bench_" ++ n → x = y

/-- The layers override each other key by key. A table in a file is merged with what is below it, and
if it has no entries that stays as it is, so no file may hold such a table. -/
def KeyByKey (s : Surroundings) : Prop := ∀ entry ∈ s.fileEntries, entry.2 ≠ .table true

instance (s : Surroundings) : Decidable s.KeyByKey :=
  inferInstanceAs (Decidable (∀ entry ∈ s.fileEntries, entry.2 ≠ .table true))

lemma found_of_present (h : ∀ path ∈ s.files, (s.content? path).isSome ∧
    (Layer.Format.ofExtension? (Layer.extension path)).isSome) :
    ∀ path ∈ s.files, Layer.FoundOnce s.content? path := fun path hpath =>
  Layer.foundOnce_of_present (h path hpath).1 (h path hpath).2

/-- What a layer says about a name: its default value, the entry of a file, the text of a variable
that is not empty, or that of the last argument that sets the name. -/
inductive Defines (s : Surroundings) (n : String) : SettingLayer → SettingValue → Prop
  | defaults {w} (h : (n, w) ∈ Layer.defaults) : Defines s n .defaults w
  | common {entries w} (hfile : s.commonEntries? = some entries)
      (hlast : Layer.FileDefines entries n w) : Defines s n .common w
  | chosen {entries w} (hfile : s.chosenEntries? = some entries)
      (hlast : Layer.FileDefines entries n w) : Defines s n .chosen w
  | environment {name text} (hmem : (name, text) ∈ s.environment)
      (hname : foldName name = "bench_" ++ n) (htext : text ≠ "") :
      Defines s n .environment (.text text)
  | arguments {before argument after key text} (h : s.arguments = before ++ argument :: after)
      (hset : Layer.IsSetting argument key text) (hkey : foldName key = n)
      (hlast : ∀ later ∈ after, ∀ key text, Layer.IsSetting later key text → foldName key ≠ n) :
      Defines s n .arguments (.text text)

/-- The last layer that says anything about a name gives it this value. -/
def Wins (s : Surroundings) (n : String) (k : SettingLayer) (v : SettingValue) : Prop :=
  s.Defines n k v ∧ ∀ j, k.place < j.place → ∀ w, ¬ s.Defines n j w

end Surroundings

namespace Layer
variable {entries : List (String × SettingValue)} {n : String} {v : SettingValue}

lemma value?_ofEntries_eq_some_iff : (ofEntries entries).value? n = some v ↔
    FileDefines entries n v := by
  rw [ofEntries_eq, value?_filterMap_eq_some_iff]
  simp only [LastEntry, FileDefines, ne_eq, Option.guard_eq_some_iff, decide_eq_true_eq]
  constructor
  · rintro ⟨before, _, after, rfl, ⟨rfl, hv⟩, hlast⟩
    refine ⟨before, after, rfl, hv, fun w hw => ?_⟩
    by_contra hne
    exact hlast _ hw w ⟨rfl, hne⟩
  · rintro ⟨before, after, rfl, hv, hlast⟩
    refine ⟨before, (n, v), after, rfl, ⟨rfl, hv⟩, ?_⟩
    rintro _ hlater w ⟨rfl, hne⟩
    exact hne (hlast w hlater)

/-- If all lines for a name agree on its value, it does not matter which is the last. -/
lemma lastEntry_iff_exists_mem {α : Type} {setting? : α → Option (String × SettingValue)}
    {lines : List α} (h : ∀ x ∈ lines, ∀ y ∈ lines, ∀ v w,
      setting? x = some (n, v) → setting? y = some (n, w) → v = w) :
    LastEntry setting? lines n v ↔ ∃ line ∈ lines, setting? line = some (n, v) := by
  constructor
  · rintro ⟨before, line, after, rfl, hline, -⟩
    exact ⟨line, by simp, hline⟩
  · rintro ⟨line, hmem, hline⟩
    cases hvalue : value? (lines.filterMap setting?) n with
    | none => exact absurd hline (value?_filterMap_eq_none_iff.mp hvalue line hmem v)
    | some w =>
      have hlast := value?_filterMap_eq_some_iff.mp hvalue
      obtain ⟨before, last, after, hlines, hentry, -⟩ := id hlast
      have hw : v = w := h line hmem last (by simp [hlines]) v w hline hentry
      rwa [hw]

lemma value?_defaults_eq_some_iff : defaults.value? n = some v ↔ (n, v) ∈ defaults := by
  have hlines : defaults.filterMap some = defaults := List.filterMap_some
  have hagree : ∀ x ∈ defaults, ∀ y ∈ defaults, x.1 = y.1 → x = y := by decide
  rw [← hlines, value?_filterMap_eq_some_iff, lastEntry_iff_exists_mem]
  · simp
  · rintro x hx y hy v w ⟨⟩ ⟨⟩
    cases hagree _ hx _ hy rfl
    rfl

end Layer

namespace Surroundings
variable {s s' : Surroundings} {n : String} {k : SettingLayer} {v : SettingValue}

lemma value?_ofEnvironment_eq_some_iff (hs : s.Readable) :
    (Layer.ofEnvironment s.environment).value? n = some v ↔ s.Defines n .environment v := by
  rw [Layer.ofEnvironment_eq, Layer.value?_filterMap_eq_some_iff, Layer.lastEntry_iff_exists_mem]
  · simp only [Layer.ofVariable?_eq_some_iff]
    constructor
    · rintro ⟨⟨name, text⟩, hmem, hname, htext, rfl⟩
      exact .environment hmem hname htext
    · rintro ⟨⟩
      next name text hmem hname htext => exact ⟨(name, text), hmem, hname, htext, rfl⟩
  · intro x hx y hy v w hv hw
    obtain ⟨hxname, -, rfl⟩ := Layer.ofVariable?_eq_some_iff.mp hv
    obtain ⟨hyname, -, rfl⟩ := Layer.ofVariable?_eq_some_iff.mp hw
    rw [hs.distinct x hx y hy n hxname hyname]

lemma value?_ofArguments_eq_some_iff :
    (Layer.ofArguments s.arguments).value? n = some v ↔ s.Defines n .arguments v := by
  have hvalue : (Layer.ofArguments s.arguments).value? n = some v ↔
      Layer.LastSetting foldName s.arguments n v := Layer.value?_entries_eq_some_iff
  rw [hvalue]
  constructor
  · rintro ⟨before, argument, after, key, text, harguments, hset, hkey, rfl, hlast⟩
    exact .arguments harguments hset hkey hlast
  · rintro ⟨⟩
    next before argument after key text harguments hset hkey hlast =>
      exact ⟨before, argument, after, key, text, harguments, hset, hkey, rfl, hlast⟩

/-- The settings are five layers, and each holds what is said about a name in the place it is made
from. -/
theorem exists_settings (hs : s.Readable) : ∃ l : SettingLayer → Layer,
    s.settings? = some ⟨SettingLayer.all.map l⟩ ∧
    ∀ n k v, (l k).value? n = some v ↔ s.Defines n k v := by
  obtain ⟨common, hcommon⟩ := Option.isSome_iff_exists.mp hs.common
  obtain ⟨chosen, hchosen⟩ := Option.isSome_iff_exists.mp hs.chosen
  refine ⟨fun
    | .defaults => .defaults
    | .common => .ofEntries common
    | .chosen => .ofEntries chosen
    | .environment => .ofEnvironment s.environment
    | .arguments => .ofArguments s.arguments, ?_, ?_⟩
  · rw [settings?, Layer.ofFile?_eq_map, ← commonEntries?, hcommon]
    rw [chosenEntries?] at hchosen
    cases hpath : chosenFile? s.environment with
    | none =>
      rw [hpath] at hchosen
      cases hchosen
      rfl
    | some path =>
      rw [hpath] at hchosen
      dsimp only at hchosen ⊢
      rw [Layer.ofFile?_eq_map, hchosen]
      rfl
  · intro n k v
    cases k with
    | defaults =>
      rw [Layer.value?_defaults_eq_some_iff]
      exact ⟨.defaults, fun | .defaults h => h⟩
    | common =>
      rw [Layer.value?_ofEntries_eq_some_iff]
      refine ⟨.common hcommon, ?_⟩
      rintro ⟨⟩
      next entries hfile hlast => exact Option.some.inj (hcommon.symm.trans hfile) ▸ hlast
    | chosen =>
      rw [Layer.value?_ofEntries_eq_some_iff]
      refine ⟨.chosen hchosen, ?_⟩
      rintro ⟨⟩
      next entries hfile hlast => exact Option.some.inj (hchosen.symm.trans hfile) ▸ hlast
    | environment => exact value?_ofEnvironment_eq_some_iff hs
    | arguments => exact value?_ofArguments_eq_some_iff

/-- If any layer says something about a name, a last one does. -/
theorem exists_wins {k : SettingLayer} {v : SettingValue} (h : s.Defines n k v) :
    ∃ j w, s.Wins n j w := by
  by_cases hlast : ∀ j, k.place < j.place → ∀ w, ¬ s.Defines n j w
  · exact ⟨k, v, h, hlast⟩
  · -- Some later layer says something too; there are finitely many.
    push Not at hlast
    obtain ⟨j, hj, w, hw⟩ := hlast
    exact exists_wins hw
termination_by 5 - k.place
decreasing_by
  have hbound := j.place_lt
  omega

section Layers
variable {l : SettingLayer → Layer} (hl : ∀ n k v, (l k).value? n = some v ↔ s.Defines n k v)
include hl

lemma value?_eq_none (h : ∀ v, ¬ s.Defines n k v) : (l k).value? n = none :=
  Option.eq_none_iff_forall_ne_some.mpr fun v hv => h v ((hl n k v).mp hv)

/-- The last layer that says anything about a name decides on its value. -/
theorem value?_of_wins (h : s.Wins n k v) :
    Settings.value? ⟨SettingLayer.all.map l⟩ n = some v := by
  obtain ⟨hdefines, hlast⟩ := h
  -- The layers behind `k` in the list are those after it, which say nothing.
  obtain ⟨before, after, hall⟩ := List.append_of_mem k.mem_all
  have hafter : ∀ j ∈ after, k.place < j.place := by
    have hordered := SettingLayer.ordered_all
    rw [hall, List.pairwise_append] at hordered
    exact (List.pairwise_cons.mp hordered.2.1).1
  rw [hall, List.map_append, List.map_cons]
  refine Settings.value?_of_last ((hl n k v).mpr hdefines) ?_
  intro later hlater
  obtain ⟨j, hj, rfl⟩ := List.mem_map.mp hlater
  exact value?_eq_none hl (hlast j (hafter j hj))

lemma value?_of_not_defines (h : ∀ k v, ¬ s.Defines n k v) :
    Settings.value? ⟨SettingLayer.all.map l⟩ n = none := by
  rw [Settings.value?_eq_none_iff]
  intro later hlater
  obtain ⟨j, -, rfl⟩ := List.mem_map.mp hlater
  exact value?_eq_none hl (h j)

end Layers

end Surroundings
end VerifierBench
