import VerifierBench.Proofs.Settings.Precedence

/-! Answers of the settings. The last layer that says something about a name answers for all
types, also when its value is malformed; entries below it and entries for other names do not
matter. -/
namespace VerifierBench

namespace Layer
variable {α : Type} {setting? : α → Option (String × SettingValue)} {n : String}

/-- Only the lines for a name decide on its value. -/
lemma value?_filterMap_filter (lines : List α) :
    let own := lines.filter fun line => (setting? line).any fun entry => entry.1 = n
    value? (own.filterMap setting?) n = value? (lines.filterMap setting?) n := by
  intro own
  rw [← value?_filter (lines.filterMap setting?), List.filter_filterMap, List.filterMap_filter]
  congr 2
  funext line
  cases setting? line with
  | none => rfl
  | some entry => by_cases h : entry.1 = n <;> simp [Option.filter, h]

lemma value?_ofEntries_filter (entries : List (String × SettingValue)) :
    (ofEntries (entries.filter fun entry => entry.1 = n)).value? n =
      (ofEntries entries).value? n := by
  rw [← value?_filter (ofEntries entries), ofEntries, ofEntries, List.filter_filter,
    List.filter_filter]
  simp only [Bool.and_comm]

end Layer

namespace Surroundings
variable {s s' : Surroundings} {n : String} {k : SettingLayer} {v : SettingValue}

/-- Both surroundings have the same entries for a name in a layer. -/
def SameEntries (s s' : Surroundings) (n : String) : SettingLayer → Prop
  | .defaults => True
  | .common => s.commonEntries?.map (List.filter fun entry => entry.1 = n) =
      s'.commonEntries?.map (List.filter fun entry => entry.1 = n)
  | .chosen => s.chosenEntries?.map (List.filter fun entry => entry.1 = n) =
      s'.chosenEntries?.map (List.filter fun entry => entry.1 = n)
  | .environment => ∀ x, foldName x.1 = "bench_" ++ n → (x ∈ s.environment ↔ x ∈ s'.environment)
  | .arguments => s.arguments.filter (fun a => (Layer.ofArgument? a).any fun entry => entry.1 = n) =
      s'.arguments.filter fun a => (Layer.ofArgument? a).any fun entry => entry.1 = n

lemma SameEntries.symm (h : s.SameEntries s' n k) : s'.SameEntries s n k := by
  cases k with
  | defaults => trivial
  | common => exact Eq.symm h
  | chosen => exact Eq.symm h
  | environment => exact fun x hx => (h x hx).symm
  | arguments => exact Eq.symm h

/-- Entries for a name in two files that are the same say the same about it. -/
lemma fileDefines_of_filter_eq {entries? entries'? : Option (List (String × SettingValue))}
    (h : entries?.map (List.filter fun entry => entry.1 = n) =
      entries'?.map (List.filter fun entry => entry.1 = n))
    {entries : List (String × SettingValue)} (hentries : entries? = some entries)
    (hdefines : Layer.FileDefines entries n v) :
    ∃ entries', entries'? = some entries' ∧ Layer.FileDefines entries' n v := by
  rw [hentries, Option.map_some] at h
  obtain ⟨entries', hentries', hfilter⟩ := Option.map_eq_some_iff.mp h.symm
  refine ⟨entries', hentries', ?_⟩
  rw [← Layer.value?_ofEntries_eq_some_iff] at hdefines ⊢
  rwa [← Layer.value?_ofEntries_filter, hfilter, Layer.value?_ofEntries_filter]

/-- What a layer says about a name is read off its entries for that name. -/
theorem SameEntries.defines (h : s.SameEntries s' n k) (hdefines : s.Defines n k v) :
    s'.Defines n k v := by
  cases hdefines with
  | defaults hv => exact .defaults hv
  | common hfile hlast =>
    obtain ⟨entries', hfile', hlast'⟩ := fileDefines_of_filter_eq h hfile hlast
    exact .common hfile' hlast'
  | chosen hfile hlast =>
    obtain ⟨entries', hfile', hlast'⟩ := fileDefines_of_filter_eq h hfile hlast
    exact .chosen hfile' hlast'
  | environment hmem hname htext => exact .environment ((h (_, _) hname).mp hmem) hname htext
  | arguments harguments hset hkey hlast =>
    -- The arguments may differ in number, so the last one is found again through the value.
    have hvalue := value?_ofArguments_eq_some_iff.mpr (.arguments harguments hset hkey hlast)
    rw [← value?_ofArguments_eq_some_iff]
    rw [Layer.ofArguments_eq, ← Layer.value?_filterMap_filter] at hvalue ⊢
    rwa [← show _ = _ from h]

lemma Wins.place_le {j : SettingLayer} {w : SettingValue} (h : s.Wins n k v) (h' : s.Wins n j w) :
    j.place ≤ k.place :=
  Nat.le_of_not_lt fun hlt => h.2 j hlt w h'.1

/-- The same entries from the winning layer on make it win with the same value. -/
lemma Wins.of_sameEntries (h : s.Wins n k v)
    (hsame : ∀ j, k.place ≤ j.place → s.SameEntries s' n j) : s'.Wins n k v := by
  refine ⟨(hsame k (Nat.le_refl _)).defines h.1, fun j hj w hw => ?_⟩
  exact h.2 j hj w ((hsame j (Nat.le_of_lt hj)).symm.defines hw)

/-- Of each file the last entry for a name counts. -/
lemma KeyByKey.fileDefines_iff (hkeys : s.KeyByKey) {entries : List (String × SettingValue)}
    (hfile : s.commonEntries? = some entries ∨ s.chosenEntries? = some entries) :
    Layer.FileDefines entries n v ↔ LastEntry some entries n v := by
  have hentries : ∀ entry ∈ entries, entry.2 ≠ .table true := by
    intro entry hentry
    refine hkeys entry ?_
    rcases hfile with hfile | hfile <;> simp [fileEntries, hfile, hentry]
  have hall : Layer.ofEntries entries = entries :=
    List.filter_eq_self.mpr fun entry hentry => decide_eq_true (hentries entry hentry)
  rw [← Layer.value?_ofEntries_eq_some_iff, hall, ← Layer.value?_filterMap_eq_some_iff,
    List.filterMap_some]

section Lookup
variable {α : Type} {name : String} {settings : Settings}

lemma lookup_eq_bind (hname : isName (foldName name) = true) (convert : SettingValue → Option α)
    (settings : Settings) :
    settings.lookup convert name = (settings.value? (foldName name)).bind convert := by
  rw [Settings.lookup, if_pos hname]

lemma lookup_of_wins (hs : s.Readable) (hname : isName (foldName name) = true)
    (hsettings : s.settings? = some settings) (h : s.Wins (foldName name) k v)
    (convert : SettingValue → Option α) : settings.lookup convert name = convert v := by
  obtain ⟨l, hl, hdefines⟩ := exists_settings hs
  cases hsettings.symm.trans hl
  rw [lookup_eq_bind hname, value?_of_wins hdefines h, Option.bind_some]

lemma lookup_of_not_defines (hs : s.Readable) (hname : isName (foldName name) = true)
    (hsettings : s.settings? = some settings) (h : ∀ k v, ¬ s.Defines (foldName name) k v)
    (convert : SettingValue → Option α) : settings.lookup convert name = none := by
  obtain ⟨l, hl, hdefines⟩ := exists_settings hs
  cases hsettings.symm.trans hl
  rw [lookup_eq_bind hname, value?_of_not_defines hdefines h, Option.bind_none]

end Lookup

/-- Two arguments, the last of them malformed as a number, over an empty variable and two files. -/
def overridden : Surroundings where
  arguments := ["-Psweep_min=1", "-PSweep_Min=x"]
  environment := [("BENCH_CONFIG", "other.json"), ("BENCH_SWEEP_MIN", "")]
  content? path :=
    if path = commonFile then some "sweep_min = -5\n"
    else if path = "other.json" then some "\x7b\"sweep_min\": -7\x7d"
    else none

end Surroundings
end VerifierBench
