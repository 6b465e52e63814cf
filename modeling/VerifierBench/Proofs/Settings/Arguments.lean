import Mathlib.Logic.Function.Basic
import VerifierBench.Proofs.Settings.Layers

/-! Settings among arguments. Every argument either sets a name or remains for the command line, in the
order in which they stand; collecting the settings in one pass gives each name its last value, and does
not depend on the arguments that remain. -/
namespace VerifierBench.Layer

/-- Each argument goes one of two ways: what it sets is noted, or it stays among the others. Both keep
their order. -/
inductive Separates : List String → List (String × String) → List String → Prop
  | nil : Separates [] [] []
  | setting {argument key text arguments settings others} (h : IsSetting argument key text)
      (tail : Separates arguments settings others) :
      Separates (argument :: arguments) ((key, text) :: settings) others
  | other {argument arguments settings others} (h : ∀ key text, ¬ IsSetting argument key text)
      (tail : Separates arguments settings others) :
      Separates (argument :: arguments) settings (argument :: others)

variable {fold : String → String} {argument n : String} {arguments others : List String}
  {settings : List (String × String)} {v : SettingValue}

/-- One pass over the arguments with a table of the names set so far, written as `fold` writes them. An
argument that sets nothing is skipped, or ends the pass. -/
def collectFrom (fold : String → String) (skips : Bool) (table : String → Option SettingValue) :
    List String → Except String (String → Option SettingValue)
  | [] => .ok table
  | argument :: rest =>
    match settingOf? argument with
    | some (key, text) =>
      collectFrom fold skips (Function.update table (fold key) (some (.text text))) rest
    | none => if skips then collectFrom fold skips table rest else .error argument

/-- The table of all names that the arguments set. -/
def collect (fold : String → String) (skips : Bool) (arguments : List String) :
    Except String (String → Option SettingValue) :=
  collectFrom fold skips (fun _ => none) arguments

section Passes

lemma value?_nil : value? [] = fun _ => none := rfl

lemma value?_append (l l' : Layer) (n : String) :
    value? (l ++ l') n = (l'.value? n).or (l.value? n) := by
  induction l with
  | nil => simp [value?_nil]
  | cons entry l ih => rw [List.cons_append, value?_cons, value?_cons, ih, Option.or_assoc]

/-- A later entry takes the place of those before it. -/
lemma update_value? (l : Layer) (n : String) (v : SettingValue) :
    Function.update l.value? n (some v) = value? (l ++ [(n, v)]) := by
  funext m
  rw [value?_append, value?_cons, value?_nil, Function.update_apply]
  by_cases h : m = n
  · simp [h]
  · simp [h, Ne.symm h]

/-- By induction on the arguments, with the entries collected so far in front. -/
lemma collectFrom_skipping (fold : String → String) (l : Layer) (arguments : List String) :
    collectFrom fold true l.value? arguments =
      .ok (value? (l ++ arguments.filterMap (entryBy fold))) := by
  induction arguments generalizing l with
  | nil => simp [collectFrom]
  | cons argument arguments ih =>
    rw [collectFrom]
    cases h : settingOf? argument with
    | none => simp [ih, entryBy, h]
    | some setting => simp [update_value?, ih, entryBy, h]

lemma collectFrom_refusing (fold : String → String) (l : Layer) (arguments : List String) :
    collectFrom fold false l.value? arguments =
      match remainingArguments arguments with
      | [] => .ok (value? (l ++ arguments.filterMap (entryBy fold)))
      | argument :: _ => .error argument := by
  induction arguments generalizing l with
  | nil => simp [collectFrom, remainingArguments]
  | cons argument arguments ih =>
    rw [collectFrom]
    cases h : settingOf? argument with
    | none => simp [remainingArguments, h]
    | some setting =>
      have hremaining : remainingArguments (argument :: arguments) = remainingArguments arguments := by
        simp [remainingArguments, h]
      simp [update_value?, ih, entryBy, h, hremaining]

end Passes

section Separation

lemma settingOf?_eq_none_iff : settingOf? argument = none ↔
    ∀ key text, ¬ IsSetting argument key text := by
  simp only [Option.eq_none_iff_forall_ne_some, ne_eq, Prod.forall, settingOf?_eq_some_iff]

theorem separates_remainingArguments (arguments : List String) :
    Separates arguments (arguments.filterMap settingOf?) (remainingArguments arguments) := by
  induction arguments with
  | nil => exact .nil
  | cons argument arguments ih =>
    cases h : settingOf? argument with
    | none =>
      have hother := Separates.other (settingOf?_eq_none_iff.mp h) ih
      simpa [remainingArguments, h] using hother
    | some setting =>
      have hsetting := Separates.setting (settingOf?_eq_some_iff.mp h) ih
      simpa [remainingArguments, h] using hsetting

/-- There is one way only to separate arguments. -/
theorem Separates.eq (h : Separates arguments settings others) :
    settings = arguments.filterMap settingOf? ∧ others = remainingArguments arguments := by
  induction h with
  | nil => exact ⟨rfl, rfl⟩
  | setting hset _ ih =>
    have hfound := settingOf?_eq_some_iff.mpr hset
    simpa [remainingArguments, hfound] using ih
  | other hother _ ih =>
    have hnone := settingOf?_eq_none_iff.mpr hother
    simpa [remainingArguments, hnone] using ih

lemma remainingArguments_remainingArguments (arguments : List String) :
    remainingArguments (remainingArguments arguments) = remainingArguments arguments := by
  simp [remainingArguments]

lemma filterMap_settingOf?_remainingArguments (arguments : List String) :
    (remainingArguments arguments).filterMap settingOf? = [] := by
  simp [remainingArguments, List.filterMap_eq_nil_iff]

/-- Only what is set matters for the entries. -/
lemma filterMap_entryBy (fold : String → String) (arguments : List String) :
    arguments.filterMap (entryBy fold) =
      (arguments.filterMap settingOf?).map fun (key, text) => (fold key, .text text) := by
  rw [List.map_filterMap]
  rfl

lemma collect_skipping (fold : String → String) (arguments : List String) :
    collect fold true arguments = .ok (value? (arguments.filterMap (entryBy fold))) :=
  collectFrom_skipping fold [] arguments

lemma collect_refusing (fold : String → String) (arguments : List String) :
    collect fold false arguments =
      match remainingArguments arguments with
      | [] => .ok (value? (arguments.filterMap (entryBy fold)))
      | argument :: _ => .error argument :=
  collectFrom_refusing fold [] arguments

end Separation

/-- Every argument sets a name or remains, each in one way only. The pass that skips what remains gives
every name, in any writing of keys, the text of the last argument that sets it; what remains sets
nothing, remains again, and can be taken away, replaced or put anywhere without a change. The pass that
does not skip refuses the arguments exactly if any remain, and else has the same result. Both passes
agree with the layer of the arguments. -/
theorem arguments_separated (fold : String → String) (arguments : List String) :
    ∃ settings table,
      (∀ settings' others, Separates arguments settings' others ↔
        settings' = settings ∧ others = remainingArguments arguments) ∧
      collect fold true arguments = .ok table ∧
      (∀ n v, table n = some v ↔ LastSetting fold arguments n v) ∧
      collect fold true (remainingArguments arguments) = .ok (fun _ => none) ∧
      remainingArguments (remainingArguments arguments) = remainingArguments arguments ∧
      (∀ arguments' others, Separates arguments' settings others →
        collect fold true arguments' = .ok table) ∧
      ((∃ argument, collect fold false arguments = .error argument) ↔
        remainingArguments arguments ≠ []) ∧
      (remainingArguments arguments = [] → collect fold false arguments = .ok table) ∧
      collect foldName true arguments = .ok (ofArguments arguments).value? ∧
      collect foldName false arguments = (ofSettingArguments arguments).map value? := by
  refine ⟨arguments.filterMap settingOf?, _, ?_, collect_skipping fold arguments,
    fun n v => value?_entries_eq_some_iff, ?_, remainingArguments_remainingArguments arguments, ?_,
    ?_, ?_, collect_skipping foldName arguments, ?_⟩
  · intro settings' others
    refine ⟨Separates.eq, ?_⟩
    rintro ⟨rfl, rfl⟩
    exact separates_remainingArguments arguments
  · rw [collect_skipping, filterMap_entryBy, filterMap_settingOf?_remainingArguments]
    rfl
  · intro arguments' others hseparates
    rw [collect_skipping, filterMap_entryBy, filterMap_entryBy, ← hseparates.eq.1]
  · rw [collect_refusing]
    cases remainingArguments arguments with
    | nil => simp
    | cons argument _ => simp
  · intro hnone
    rw [collect_refusing, hnone]
  · rw [collect_refusing, ofSettingArguments]
    cases remainingArguments arguments with
    | nil => rfl
    | cons argument _ => rfl

/-- A name set twice, in two spellings, between arguments that set nothing. -/
example :
    let arguments := ["sweep", "-Psweep_min=1", "-P=2", "-PSweep_Min=3=4", "-Pquiet="]
    remainingArguments arguments = ["sweep", "-P=2", "-Pquiet="] ∧
      (ofArguments arguments).value? "sweep_min" = some (.text "3=4") := by decide

end VerifierBench.Layer
