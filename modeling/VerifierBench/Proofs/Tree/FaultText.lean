import VerifierBench.Proofs.Text.Blank
import VerifierBench.Proofs.Text.Fields
import VerifierBench.Proofs.Text.Numeral
import VerifierBench.Tree.Reader

/-! The texts that describe a fault. Fields between colons name a site, a conjunct and a comparison;
exactly these descriptions are read, each as the fault it denotes, and every fault has one. -/
namespace VerifierBench

namespace Position
variable {text : List Char} {p : Position} {c sep : Char}

/-- A position is named by its letter in either case, with any blanks around it. -/
def Names (text : List Char) (p : Position) : Prop :=
  ∃ c, c.toLower = p.letter ∧ Text.Padded [c] text

lemma isBlank_of_toLower (h : c.toLower = p.letter) : Text.isBlank c = false := by
  rw [← Text.isBlank_toLower, h]
  cases p <;> decide

lemma trim_eq_letter (h : c.toLower = p.letter) (hpadded : Text.Padded [c] text) :
    Text.trim text = [c] :=
  hpadded.trim_eq_of_visible (by simp [isBlank_of_toLower h])

lemma names_letter (p : Position) : Names [p.letter] p :=
  ⟨p.letter, by cases p <;> decide, Text.padded_self _⟩

/-- Marks that stand before the letters in the code table do not occur in a name. -/
lemma Names.notMem (h : Names text p) (hblank : Text.isBlank sep = false) (hmark : sep.toNat < 65) :
    sep ∉ text := by
  obtain ⟨c, hc, hpadded⟩ := h
  refine hpadded.notMem hblank (List.mem_singleton.not.mpr ?_)
  rintro rfl
  have hnat := Text.toNat_toLower sep
  rw [hc, if_neg (by omega)] at hnat
  have hletter : 65 ≤ p.letter.toNat := by cases p <;> decide
  omega

theorem ofText?_eq_some_iff : ofText? text = some p ↔ Names text p := by
  constructor
  · intro h
    have hp : (Text.trim text).map Char.toLower = [p.letter] := by
      simpa using List.find?_some h
    obtain ⟨c, htrim, hc⟩ := List.map_eq_singleton_iff.mp hp
    exact ⟨c, hc, htrim ▸ Text.padded_trim text⟩
  · rintro ⟨c, hc, hpadded⟩
    simp only [ofText?, trim_eq_letter hc hpadded, List.map_cons, List.map_nil, hc]
    cases p <;> rfl

theorem read_eq_ok_iff : read text = .ok p ↔ Names text p := by
  rw [← ofText?_eq_some_iff, read]
  cases ofText? text <;> simp

end Position

/-- The two positions are named on either side of the operator. -/
def Comparison.Written (e : Extremum) (text : List Char) (r : Comparison) : Prop :=
  ∃ lhs rhs, text = lhs ++ e.operator :: rhs ∧ Position.Names lhs r.lhs ∧ Position.Names rhs r.rhs

/-- The fields that say where the guard is. -/
inductive FaultSite.Written : List (List Char) → FaultSite → Prop
  | maxGuard {candidate p} (h : Position.Names candidate p) :
      Written [['m', 'a', 'x'], candidate] (.maxGuard p)
  | minGuard {max candidate m p} (hmax : Position.Names max m)
      (hcandidate : Position.Names candidate p) :
      Written [['m', 'i', 'n'], max, candidate] (.minGuard m p)

namespace Comparison
variable {e : Extremum} {text : List Char} {r : Comparison}

/-- Blanks at the end belong to the second name and can be left out. -/
lemma Written.exists_tight (h : Written e text r) : ∃ init c after, text = init ++ [c] ++ after ∧
    Written e (init ++ [c]) r ∧ Text.isBlank c = false ∧ ∀ d ∈ after, Text.isBlank d = true := by
  obtain ⟨lhs, rhs, rfl, hlhs, c, hc, before, after, rfl, hbefore, hafter⟩ := h
  refine ⟨lhs ++ e.operator :: before, c, after, by simp, ?_, Position.isBlank_of_toLower hc, hafter⟩
  exact ⟨lhs, before ++ [c], by simp, hlhs, c, hc, before, [], by simp, hbefore, by simp⟩

lemma Written.notMem (h : Written e text r) : ':' ∉ text := by
  obtain ⟨lhs, rhs, rfl, hlhs, hrhs⟩ := h
  simp only [List.mem_append, List.mem_cons]
  rintro (hmem | hmem | hmem)
  · exact hlhs.notMem (by decide) (by decide) hmem
  · cases e <;> exact absurd hmem (by decide)
  · exact hrhs.notMem (by decide) (by decide) hmem

end Comparison

namespace FaultSite
variable {text : String} {place : List (List Char)} {site : FaultSite}

theorem read_eq_ok_iff : read text place = .ok site ↔ Written place site := by
  constructor
  · intro h
    unfold read at h
    split at h
    · obtain ⟨p, hp, hsite⟩ := exists_of_bind_eq_ok h
      cases hsite
      exact .maxGuard (Position.read_eq_ok_iff.mp hp)
    · obtain ⟨m, hm, hrest⟩ := exists_of_bind_eq_ok h
      obtain ⟨p, hp, hsite⟩ := exists_of_bind_eq_ok hrest
      cases hsite
      exact .minGuard (Position.read_eq_ok_iff.mp hm) (Position.read_eq_ok_iff.mp hp)
    · cases h
  · rintro (hp | ⟨hm, hp⟩)
    · rw [read, Position.read_eq_ok_iff.mpr hp]
      rfl
    · rw [read, Position.read_eq_ok_iff.mpr hm, Position.read_eq_ok_iff.mpr hp]
      rfl

lemma Written.forall_notMem (h : Written place site) : ∀ field ∈ place, ':' ∉ field := by
  cases h with
  | maxGuard hp => simpa using hp.notMem (by decide) (by decide)
  | minGuard hm hp =>
    simpa using ⟨hm.notMem (by decide) (by decide), hp.notMem (by decide) (by decide)⟩

lemma Written.head?_joinFields (h : Written place site) (rest : List (List Char)) :
    (Text.joinFields ':' (place ++ rest)).head? = some 'm' := by
  cases h <;> rfl

end FaultSite

namespace Fault
variable {text : String} {site : FaultSite} {body conjunct comparison : List Char} {f : Fault}

/-- The fault that a text denotes, apart from blanks around the text. -/
inductive Denotes : List Char → Fault → Prop
  | named {body : List Char} (h : body.map Char.toLower = "ko2".toList ∨
      body.map Char.toLower = "maxmin6-ko2".toList) : Denotes body ko2
  | explicit {place : List (List Char)} {site : FaultSite} {conjunct comparison : List Char}
      {n : UInt64} {replacement : Comparison} (hsite : FaultSite.Written place site)
      (hconjunct : Text.IsNatural conjunct n.toNat)
      (hreplacement : Comparison.Written site.extremum comparison replacement) :
      Denotes (Text.joinFields ':' (place ++ [conjunct, comparison])) ⟨site, n, replacement⟩

/-- The text describes the fault, with any blanks around the description. -/
def Describes (text : String) (f : Fault) : Prop :=
  ∃ body, Text.Padded body text.toList ∧ Denotes body f

theorem readAt_eq_ok_iff : readAt text site conjunct comparison = .ok f ↔
    ∃ n replacement, f = ⟨site, n, replacement⟩ ∧ Text.IsNatural conjunct n.toNat ∧
      Comparison.Written site.extremum comparison replacement := by
  constructor
  · intro h
    unfold readAt at h
    split at h
    · cases h
    · next n hn =>
      split at h
      · cases h
      · next lhs rhs hcut =>
        obtain ⟨l, hl, hrest⟩ := exists_of_bind_eq_ok h
        obtain ⟨r, hr, hf⟩ := exists_of_bind_eq_ok hrest
        cases hf
        exact ⟨n, ⟨l, r⟩, rfl, (Text.readUInt64_eq_ok_iff _ _).mp hn, lhs, rhs,
          (Text.cut_eq_some hcut).1, Position.read_eq_ok_iff.mp hl, Position.read_eq_ok_iff.mp hr⟩
  · rintro ⟨n, ⟨l, r⟩, rfl, hn, lhs, rhs, rfl, hl, hr⟩
    -- The operator is a mark, so the first one is the one that ends the left name.
    have hfree : site.extremum.operator ∉ lhs := by
      cases site.extremum <;> exact hl.notMem (by decide) (by decide)
    simp only [readAt, (Text.readUInt64_eq_ok_iff _ _).mpr hn, Text.cut_append hfree,
      Position.read_eq_ok_iff.mpr hl, Position.read_eq_ok_iff.mpr hr]
    rfl

section Aliases

lemma isAlias_iff (body : List Char) : isAlias body = true ↔
    body.map Char.toLower = "ko2".toList ∨ body.map Char.toLower = "maxmin6-ko2".toList := by
  simp [isAlias]

lemma mem_of_isAlias {c : Char} (h : isAlias body = true) (hc : c ∈ body) :
    c.toLower ∈ "ko2".toList ++ "maxmin6-ko2".toList := by
  have hmem : c.toLower ∈ body.map Char.toLower := List.mem_map_of_mem hc
  rcases (isAlias_iff body).mp h with hname | hname
  · exact List.mem_append_left _ (hname ▸ hmem)
  · exact List.mem_append_right _ (hname ▸ hmem)

lemma notMem_of_isAlias (h : isAlias body = true) : ':' ∉ body :=
  fun hmem => absurd (mem_of_isAlias h hmem) (by decide)

lemma isBlank_of_isAlias (h : isAlias body = true) : ∀ c ∈ body, Text.isBlank c = false := by
  have hvisible : ∀ d ∈ "ko2".toList ++ "maxmin6-ko2".toList, Text.isBlank d = false := by
    simp [Text.isBlank]
  intro c hc
  rw [← Text.isBlank_toLower]
  exact hvisible _ (mem_of_isAlias h hc)

end Aliases

section Reading

/-- All that reading can do: recognise an alias, refuse the text as a whole, or go on with its fields. -/
lemma read_cases (text : String) :
    (isAlias (Text.trim text.toList) = true ∧ read text = .ok ko2) ∨
    read text = .error (.invalidFault text) ∨
    ∃ place conjunct comparison,
      Text.fields ':' (Text.trim text.toList) = place ++ [conjunct, comparison] ∧
      read text = (do
        let site ← FaultSite.read text place
        readAt text site conjunct comparison) := by
  unfold read
  dsimp only
  split
  · next halias => exact .inl ⟨halias, rfl⟩
  · split
    · next kind candidate _ _ hfields =>
      exact .inr (.inr ⟨[kind, candidate], _, _, hfields, rfl⟩)
    · next kind max candidate _ _ hfields =>
      exact .inr (.inr ⟨[kind, max, candidate], _, _, hfields, rfl⟩)
    · exact .inr (.inl rfl)

/-- A text with a colon is no alias, so it is read from its fields. -/
lemma read_of_fields {place : List (List Char)} (hsite : FaultSite.Written place site)
    (h : Text.fields ':' (Text.trim text.toList) = place ++ [conjunct, comparison]) :
    read text = readAt text site conjunct comparison := by
  have halias : isAlias (Text.trim text.toList) = false := by
    rw [Bool.eq_false_iff]
    intro halias
    rw [Text.fields_of_notMem (notMem_of_isAlias halias)] at h
    simpa using congrArg List.length h
  have hread : FaultSite.read text place = .ok site := FaultSite.read_eq_ok_iff.mpr hsite
  rw [read, if_neg (by simp [halias]), h]
  cases hsite with
  | maxGuard hp =>
    simp only [List.cons_append, List.nil_append, hread]
    rfl
  | minGuard hm hp =>
    simp only [List.cons_append, List.nil_append, hread]
    rfl

lemma denotes_of_read (h : read text = .ok f) : Denotes (Text.trim text.toList) f := by
  rcases read_cases text with ⟨halias, hread⟩ | hread | ⟨place, conjunct, comparison, hfields, hread⟩
  · cases hread.symm.trans h
    exact .named ((isAlias_iff _).mp halias)
  · cases hread.symm.trans h
  · obtain ⟨site, hsite, hrest⟩ := exists_of_bind_eq_ok (hread.symm.trans h)
    obtain ⟨n, replacement, rfl, hn, hreplacement⟩ := readAt_eq_ok_iff.mp hrest
    rw [← Text.joinFields_fields ':' (Text.trim text.toList), hfields]
    exact .explicit (FaultSite.read_eq_ok_iff.mp hsite) hn hreplacement

/-- A description without the blanks at its end. -/
lemma Denotes.trim {cs : List Char} (h : Denotes body f) (hpadded : Text.Padded body cs) :
    Denotes (Text.trim cs) f := by
  cases h with
  | named hname =>
    have hvisible := isBlank_of_isAlias ((isAlias_iff body).mpr hname)
    rw [hpadded.trim_eq_of_visible hvisible]
    exact .named hname
  | @explicit place site conjunct comparison n replacement hsite hn hreplacement =>
    obtain ⟨init, c, after, rfl, htight, hc, hafter⟩ := hreplacement.exists_tight
    have hjoin (part rest : List Char) : Text.joinFields ':' (place ++ [conjunct, part ++ rest]) =
        Text.joinFields ':' (place ++ [conjunct, part]) ++ rest := by
      simpa using Text.joinFields_concat_append ':' (place ++ [conjunct]) part rest
    have hinner : Text.Padded (Text.joinFields ':' (place ++ [conjunct, init ++ [c]]))
        (Text.joinFields ':' (place ++ [conjunct, init ++ [c] ++ after])) :=
      ⟨[], after, hjoin _ _, by simp, hafter⟩
    rw [(hinner.trans hpadded).trim_eq]
    · exact .explicit hsite hn htight
    · rw [hsite.head?_joinFields]
      simp [Text.isBlank]
    · rw [hjoin, List.getLast?_concat]
      simpa using hc

/-- The fields of a description are free of colons, so they are found again. -/
lemma read_of_denotes (h : Denotes (Text.trim text.toList) f) : read text = .ok f := by
  generalize hbody : Text.trim text.toList = body at h
  cases h with
  | named hname => rw [read, if_pos (by rw [hbody, isAlias_iff]; exact hname)]
  | @explicit place site conjunct comparison n replacement hsite hn hreplacement =>
    have hfree : ∀ part ∈ place ++ [conjunct, comparison], ':' ∉ part := by
      intro part hpart
      simp only [List.mem_append, List.mem_cons, List.not_mem_nil, or_false] at hpart
      rcases hpart with hpart | rfl | rfl
      · exact hsite.forall_notMem part hpart
      · exact hn.notMem (by decide) (by decide)
      · exact hreplacement.notMem
    have hfields := Text.fields_joinFields (by simp) hfree
    rw [read_of_fields hsite (hbody ▸ hfields)]
    exact readAt_eq_ok_iff.mpr ⟨n, replacement, rfl, hn, hreplacement⟩

theorem read_eq_ok_iff : read text = .ok f ↔ Describes text f := by
  constructor
  · intro h
    exact ⟨Text.trim text.toList, Text.padded_trim _, denotes_of_read h⟩
  · rintro ⟨body, hpadded, hdenotes⟩
    exact read_of_denotes (hdenotes.trim hpadded)

end Reading

section Refusals

/-- A text is refused as a whole, or for a part that stands in the place of a position. -/
inductive Unreadable (text : String) : Error → Prop
  | malformed : Unreadable text (.invalidFault text)
  | badName {part : List Char} (hpart : part <:+: text.toList)
      (hname : ∀ p, ¬ Position.Names part p) :
      Unreadable text (.invalidPosition (String.ofList part))

/-- If this step of reading fails, it blames the text or a part of it. -/
def Blames {α : Type} (text : String) (x : Except Error α) : Prop :=
  ∀ cause, x = .error cause → Unreadable text cause

lemma blames_ok {α : Type} (a : α) : Blames text (.ok a) := fun _ h => nomatch h

lemma blames_malformed {α : Type} : Blames text (.error (.invalidFault text) : Except Error α) := by
  intro cause h
  cases h
  exact .malformed

lemma Blames.bind {α β : Type} {x : Except Error α} {next : α → Except Error β}
    (h : Blames text x) (hnext : ∀ a, Blames text (next a)) : Blames text (x >>= next) := by
  intro cause hcause
  cases x with
  | error _ =>
    cases hcause
    exact h _ rfl
  | ok a => exact hnext a cause hcause

lemma blames_position {part : List Char} (hpart : part <:+: text.toList) :
    Blames text (Position.read part) := by
  unfold Position.read
  split
  · exact blames_ok _
  · next hnone =>
    intro cause h
    cases h
    refine .badName hpart fun p hp => ?_
    rw [Position.ofText?_eq_some_iff.mpr hp] at hnone
    cases hnone

lemma blames_site {place : List (List Char)} (h : ∀ part ∈ place, part <:+: text.toList) :
    Blames text (FaultSite.read text place) := by
  unfold FaultSite.read
  split
  · exact (blames_position (h _ (by simp))).bind fun _ => blames_ok _
  · exact (blames_position (h _ (by simp))).bind fun _ =>
      (blames_position (h _ (by simp))).bind fun _ => blames_ok _
  · exact blames_malformed

lemma blames_readAt (h : comparison <:+: text.toList) :
    Blames text (readAt text site conjunct comparison) := by
  unfold readAt
  split
  · exact blames_malformed
  · split
    · exact blames_malformed
    · next lhs rhs hcut =>
      rw [(Text.cut_eq_some hcut).1] at h
      have hlhs : lhs <:+: text.toList := (List.prefix_append lhs _).isInfix.trans h
      have hrhs : rhs <:+: text.toList :=
        ((List.suffix_cons _ rhs).trans (List.suffix_append lhs _)).isInfix.trans h
      exact (blames_position hlhs).bind fun _ => (blames_position hrhs).bind fun _ => blames_ok _

/-- All fields are parts of the text, so only such parts are refused as positions. -/
theorem blames_read (text : String) : Blames text (read text) := by
  have hpart : ∀ part ∈ Text.fields ':' (Text.trim text.toList), part <:+: text.toList := by
    intro part hmem
    have hinfix : part <:+: Text.trim text.toList := by
      rw [← Text.joinFields_fields ':' (Text.trim text.toList)]
      exact Text.infix_joinFields hmem
    obtain ⟨before, after, htext, -, -⟩ := Text.padded_trim text.toList
    exact hinfix.trans ⟨before, after, htext.symm⟩
  rcases read_cases text with ⟨-, hread⟩ | hread | ⟨place, conjunct, comparison, hfields, hread⟩
  · rw [hread]
    exact blames_ok _
  · rw [hread]
    exact blames_malformed
  · rw [hread]
    rw [hfields] at hpart
    exact (blames_site fun part hmem => hpart part (List.mem_append_left _ hmem)).bind
      fun _ => blames_readAt (hpart comparison (by simp))

end Refusals

section Canonical

/-- The fields of the site in small letters without blanks. -/
def siteFields : FaultSite → List (List Char)
  | .maxGuard p => [['m', 'a', 'x'], [p.letter]]
  | .minGuard m p => [['m', 'i', 'n'], [m.letter], [p.letter]]

/-- The canonical description: small letters, no blanks, and the conjunct without sign or zeros
before it. -/
def description (f : Fault) : String :=
  String.ofList (Text.joinFields ':' (siteFields f.site ++
    [Nat.toDigits 10 f.conjunct.toNat, (f.replacement.text f.site.extremum).toList]))

lemma written_siteFields (site : FaultSite) : FaultSite.Written (siteFields site) site := by
  cases site with
  | maxGuard p => exact .maxGuard p.names_letter
  | minGuard m p => exact .minGuard m.names_letter p.names_letter

lemma describes_description (f : Fault) : Describes f.description f := by
  refine ⟨_, Text.padded_self _, ?_⟩
  rw [description, String.toList_ofList]
  refine .explicit (written_siteFields f.site) (Text.isNatural_toDigits _) ?_
  exact ⟨[f.replacement.lhs.letter], [f.replacement.rhs.letter], by simp [Comparison.text],
    Position.names_letter _, Position.names_letter _⟩

example : ko2.description = "max:a:2:b>d" := by decide

end Canonical

/-- Reading faults is exact: a text is read as the fault that it describes, every fault has a
description that is read back, and a text that describes no fault is refused. -/
theorem read_exact :
    (∀ text f, read text = .ok f ↔ Describes text f) ∧
    (∀ f, Describes f.description f ∧ read f.description = .ok f) ∧
    ∀ text, (∃ f, read text = .ok f ∧ Describes text f) ∨
      ∃ cause, read text = .error cause ∧ Unreadable text cause ∧ ∀ f, ¬ Describes text f := by
  refine ⟨fun _ _ => read_eq_ok_iff, fun f => ?_, fun text => ?_⟩
  · exact ⟨describes_description f, read_eq_ok_iff.mpr (describes_description f)⟩
  · cases hread : read text with
    | ok f => exact .inl ⟨f, rfl, read_eq_ok_iff.mp hread⟩
    | error cause =>
      refine .inr ⟨cause, rfl, blames_read text cause hread, fun f hf => ?_⟩
      rw [read_eq_ok_iff.mpr hf] at hread
      cases hread

end Fault
end VerifierBench
