import VerifierBench.Proofs.Settings.Lookup
import VerifierBench.Proofs.Text.Blank

/-! Spellings of setting names. Variables and arguments set a name in whatever letter case; an entry of
a file is found only if its key is spelled in small letters, and no lookup finds any other entry. -/
namespace VerifierBench

/-- The names differ in the case of ASCII letters only. -/
def SameLetters (a b : String) : Prop := a.toList.map Char.toLower = b.toList.map Char.toLower

section Names
variable {a b : String} {c : Char}

/-- The letter that a character of a name counts as. -/
def foldLetter (c : Char) : Char := if c.toNat = 0x212A then 'k' else c.toLower

lemma toList_foldName (s : String) : (foldName s).toList = s.toList.map foldLetter := by
  rw [foldName, String.toList_ofList]
  rfl

lemma foldLetter_toLower (c : Char) : foldLetter c.toLower = foldLetter c := by
  have h := Text.toNat_toLower c
  have hkelvin : c.toLower.toNat = 0x212A ↔ c.toNat = 0x212A := by
    split at h <;> omega
  simp only [foldLetter, hkelvin, Text.toLower_toLower]

lemma foldLetter_foldLetter (c : Char) : foldLetter (foldLetter c) = foldLetter c := by
  by_cases h : c.toNat = 0x212A
  · rw [show foldLetter c = 'k' from if_pos h]
    rfl
  · rw [show foldLetter c = c.toLower from if_neg h, foldLetter_toLower]
    exact if_neg h

lemma foldName_foldName (s : String) : foldName (foldName s) = foldName s := by
  apply String.toList_inj.mp
  rw [toList_foldName, toList_foldName, List.map_map]
  exact List.map_congr_left fun c _ => foldLetter_foldLetter c

lemma foldName_append (a b : String) : foldName (a ++ b) = foldName a ++ foldName b := by
  apply String.toList_inj.mp
  simp only [toList_foldName, String.toList_append, List.map_append]

lemma SameLetters.foldName_eq (h : SameLetters a b) : foldName a = foldName b := by
  have hfold : ∀ s : String,
      (foldName s).toList = (s.toList.map Char.toLower).map foldLetter := by
    intro s
    rw [toList_foldName, List.map_map]
    exact List.map_congr_left fun c _ => (foldLetter_toLower c).symm
  apply String.toList_inj.mp
  rw [hfold, hfold, show _ = _ from h]

end Names

/-- Layers that are read from a file. -/
def SettingLayer.IsFile : SettingLayer → Prop
  | .common | .chosen => True
  | .defaults | .environment | .arguments => False

namespace Surroundings
variable {s s' : Surroundings} {n key name : String} {k : SettingLayer} {v : SettingValue}

/-- A layer sets a name, spelled this way, to a value. For arguments this is the last one that sets the
name in any spelling. -/
inductive Spells (s : Surroundings) (key : String) : SettingLayer → SettingValue → Prop
  | common {entries w} (hfile : s.commonEntries? = some entries)
      (hlast : Layer.FileDefines entries key w) : Spells s key .common w
  | chosen {entries w} (hfile : s.chosenEntries? = some entries)
      (hlast : Layer.FileDefines entries key w) : Spells s key .chosen w
  | environment {start text} (hmem : (start ++ key, text) ∈ s.environment)
      (hstart : foldName start = "bench_") (htext : text ≠ "") :
      Spells s key .environment (.text text)
  | arguments {before argument after text} (h : s.arguments = before ++ argument :: after)
      (hset : Layer.IsSetting argument key text)
      (hlast : ∀ later ∈ after, ∀ key' text', Layer.IsSetting later key' text' →
        foldName key' ≠ foldName key) :
      Spells s key .arguments (.text text)

/-- A file defines names as they are spelled, the other layers define them in small letters. -/
theorem Spells.defines (h : s.Spells key k v) (hfile : k.IsFile → foldName key = key) :
    s.Defines (foldName key) k v := by
  cases h with
  | common hentries hlast =>
    rw [hfile trivial]
    exact .common hentries hlast
  | chosen hentries hlast =>
    rw [hfile trivial]
    exact .chosen hentries hlast
  | environment hmem hstart htext =>
    refine .environment hmem ?_ htext
    rw [foldName_append, hstart]
  | arguments harguments hset hlast => exact .arguments harguments hset rfl hlast

/-- Surroundings with the same entries for a name give it the same value. -/
lemma lookup_eq_of_sameEntries (hs : s.Readable) (hs' : s'.Readable) {settings settings' : Settings}
    (hsettings : s.settings? = some settings) (hsettings' : s'.settings? = some settings')
    (hsame : ∀ k, s.SameEntries s' (foldName name) k) {α : Type} (convert : SettingValue → Option α) :
    settings'.lookup convert name = settings.lookup convert name := by
  obtain ⟨l, hl, hdefines⟩ := exists_settings hs
  obtain ⟨l', hl', hdefines'⟩ := exists_settings hs'
  cases hsettings.symm.trans hl
  cases hsettings'.symm.trans hl'
  have hlayer : ∀ k, (l' k).value? (foldName name) = (l k).value? (foldName name) := by
    intro k
    apply Option.ext
    intro v
    rw [hdefines, hdefines']
    exact ⟨(hsame k).symm.defines, (hsame k).defines⟩
  have hvalue : Settings.value? ⟨SettingLayer.all.map l'⟩ (foldName name) =
      Settings.value? ⟨SettingLayer.all.map l⟩ (foldName name) := by
    simp only [Settings.value?, ← List.map_reverse, List.findSome?_map, Function.comp_def, hlayer]
  rw [Settings.lookup, Settings.lookup, hvalue]

/-- A value is found under every spelling of its name if the last layer that sets the name is the
environment or the arguments, or a file that spells it in small letters. An entry of a file under a
name with a capital letter is found by no lookup at all: it can be anything, or missing. -/
theorem lookup_any_spelling (hs : s.Readable) (hname : isName (foldName name) = true)
    (hsame : SameLetters key name) :
    ∃ settings, s.settings? = some settings ∧
      (∀ k v, s.Spells key k v → (k.IsFile → foldName key = key) →
        (∀ j, k.place < j.place → ∀ w, ¬ s.Defines (foldName key) j w) →
        ∀ {α : Type} (convert : SettingValue → Option α),
          settings.lookup convert name = convert v) ∧
      (foldName key ≠ key → ∀ s' : Surroundings, s'.Readable →
        (∀ n, n ≠ key → ∀ j, s.SameEntries s' n j) →
        ∃ settings', s'.settings? = some settings' ∧
          ∀ (other : String) {α : Type} (convert : SettingValue → Option α),
            settings'.lookup convert other = settings.lookup convert other) := by
  obtain ⟨l, hsettings, -⟩ := exists_settings hs
  refine ⟨_, hsettings, ?_, ?_⟩
  · intro k v hspells hfile hlast α convert
    have hwins : s.Wins (foldName name) k v := by
      rw [← hsame.foldName_eq]
      exact ⟨hspells.defines hfile, hlast⟩
    exact lookup_of_wins hs hname hsettings hwins convert
  · intro hcapital s' hs' hentries
    obtain ⟨l', hsettings', -⟩ := exists_settings hs'
    refine ⟨_, hsettings', fun other {α} convert => ?_⟩
    -- Names are looked up in small letters, so never under the key.
    have hne : foldName other ≠ key := by
      rintro rfl
      exact hcapital (foldName_foldName other)
    exact lookup_eq_of_sameEntries hs hs' hsettings hsettings' (hentries _ hne) convert

/-- A variable over a file, both with capital letters in the same places. -/
def mixedLetters : Surroundings where
  arguments := []
  environment := [("Bench_Sweep_Min", "5")]
  content? path := if path = commonFile then some "Sweep_Min = 7\n" else none

/-- The variable is found under another spelling. The entry of the file is not, so the file could be
missing. -/
theorem lookup_mixed_letters : mixedLetters.Readable ∧ isName (foldName "sweep_MIN") = true ∧
    SameLetters "Sweep_Min" "sweep_MIN" ∧ mixedLetters.Spells "Sweep_Min" .environment (.text "5") ∧
    mixedLetters.Spells "Sweep_Min" .common (.int 7) ∧
    ∃ settings settings', mixedLetters.settings? = some settings ∧
      settings.lookup SettingValue.toInt32? "sweep_MIN" = some 5 ∧
      Surroundings.settings? ⟨[], mixedLetters.environment, fun _ => none⟩ = some settings' ∧
      settings'.lookup SettingValue.toInt32? "sweep_MIN" =
        settings.lookup SettingValue.toInt32? "sweep_MIN" := by
  have hcommon : mixedLetters.commonEntries? = some [("Sweep_Min", .int 7)] := by decide +kernel
  have hdistinct : ∀ x ∈ mixedLetters.environment, ∀ y ∈ mixedLetters.environment, ∀ n,
      foldName x.1 = "bench_" ++ n → foldName y.1 = "bench_" ++ n → x = y := by
    intro x hx y hy _ _ _
    exact (List.mem_singleton.mp hx).trans (List.mem_singleton.mp hy).symm
  have hreadable : mixedLetters.Readable :=
    { common := by decide +kernel
      chosen := by decide +kernel
      found := found_of_present (by decide +kernel)
      flat := by decide +kernel
      distinct := hdistinct }
  have hname : isName (foldName "sweep_MIN") = true := by decide
  have hsame : SameLetters "Sweep_Min" "sweep_MIN" := by
    unfold SameLetters
    decide
  have hvariable : ("Bench_" ++ "Sweep_Min", "5") ∈ mixedLetters.environment :=
    List.mem_singleton_self _
  have hspells : mixedLetters.Spells "Sweep_Min" .environment (.text "5") :=
    .environment hvariable (by decide) (by decide)
  have hfile : mixedLetters.Spells "Sweep_Min" .common (.int 7) :=
    .common hcommon ⟨[], [], rfl, by decide, by simp⟩
  obtain ⟨settings, hsettings, hfound, hunread⟩ := lookup_any_spelling hreadable hname hsame
  have hlast : ∀ j, SettingLayer.environment.place < j.place → ∀ w,
      ¬ mixedLetters.Defines (foldName "Sweep_Min") j w := by
    intro j hj w hdefines
    cases hdefines with
    | arguments harguments => exact absurd harguments (by simp [mixedLetters])
    | defaults | common | chosen | environment => exact absurd hj (by decide)
  have hlookup := hfound _ _ hspells (fun h => h.elim) hlast SettingValue.toInt32?
  have hentries : ∀ n, n ≠ "Sweep_Min" → ∀ j,
      mixedLetters.SameEntries ⟨[], mixedLetters.environment, fun _ => none⟩ n j := by
    intro n hn j
    cases j with
    | defaults => trivial
    | common =>
      change mixedLetters.commonEntries?.map _ = _
      rw [hcommon]
      simp [hn.symm, commonEntries?, Layer.entriesOfFile?, Layer.locate]
    | chosen => rfl
    | environment => exact fun x _ => Iff.rfl
    | arguments => rfl
  obtain ⟨settings', hsettings', hequal⟩ := hunread (by decide)
    ⟨[], mixedLetters.environment, fun _ => none⟩
    { common := by decide +kernel
      chosen := by decide +kernel
      found := fun path _ => Layer.foundOnce_of_missing path
      flat := by decide +kernel
      distinct := hdistinct } hentries
  exact ⟨hreadable, hname, hsame, hspells, hfile, settings, settings', hsettings,
    hlookup.trans (by decide +kernel), hsettings', hequal _ _⟩

/-- Seven is set under a name in capital letters, and the answer under the same name in small letters is
the default below it. -/
theorem capital_key_not_found :
    let s : Surroundings :=
      ⟨[], [], fun path => if path = commonFile then some "SWEEP_MIN = 7\n" else none⟩
    s.Readable ∧ s.Spells "SWEEP_MIN" .common (.int 7) ∧ SameLetters "SWEEP_MIN" "sweep_min" ∧
      (∀ j, SettingLayer.common.place < j.place → ∀ w, ¬ s.Defines (foldName "SWEEP_MIN") j w) ∧
      SettingValue.toInt32? (.int 7) = some 7 ∧
      ∃ settings, s.settings? = some settings ∧
        settings.lookup SettingValue.toInt32? "sweep_min" = some (-2) := by
  intro s
  have hcommon : s.commonEntries? = some [("SWEEP_MIN", .int 7)] := by decide +kernel
  have hchosen : s.chosenEntries? = some [] := rfl
  have hreadable : s.Readable :=
    { common := by rw [hcommon, Option.isSome_some]
      chosen := by rw [hchosen, Option.isSome_some]
      found := found_of_present (by decide +kernel)
      flat := by decide +kernel
      distinct := fun x hx => absurd hx List.not_mem_nil }
  have hsettings : s.settings? =
      some ⟨[.defaults, [("SWEEP_MIN", .int 7)], [], [], []]⟩ := by decide +kernel
  refine ⟨hreadable, .common hcommon ⟨[], [], rfl, by decide, by simp⟩, ?_, ?_, by decide, _, hsettings,
    by decide +kernel⟩
  · unfold SameLetters
    decide
  · intro j hj w hdefines
    cases hdefines with
    | defaults | common => exact absurd hj (by decide)
    | chosen hfile hlast =>
      cases hchosen.symm.trans hfile
      obtain ⟨before, after, hentries, -⟩ := hlast
      exact absurd hentries (by simp)
    | environment hmem => exact absurd hmem List.not_mem_nil
    | arguments harguments => exact absurd harguments (by simp [s])

end Surroundings
end VerifierBench
