import Mathlib.Data.List.Forall2
import VerifierBench.Proofs.Text.Blank
import VerifierBench.Proofs.Text.Fields
import VerifierBench.Position
import VerifierBench.Proofs.Text.Numeral

/-! Lists of words in texts. Blanks around fields, blank fields in between, and brackets and blanks
around the whole change nothing about what the fields hold once they are trimmed. -/
namespace VerifierBench.Text
variable {body text part field : List Char} {sep c : Char} {x : Int32}

section Wrapping

/-- Blanks at the ends of a text are blanks around its first and its last field. -/
lemma Padded.map_trim_fields (h : Padded body text) (hsep : isBlank sep = false) :
    (fields sep text).map trim = (fields sep body).map trim := by
  obtain ⟨before, after, rfl, hbefore, hafter⟩ := h
  have hfree : ∀ {cs : List Char}, (∀ c ∈ cs, isBlank c = true) → sep ∉ cs := by
    intro cs hcs hmem
    rw [hcs sep hmem] at hsep
    cases hsep
  obtain ⟨init, last, hlast, hright⟩ := exists_fields_append_right (hfree hafter) (before ++ body)
  obtain ⟨first, rest, hfirst, hleft⟩ := exists_fields_append_left (hfree hbefore) body
  have htrimLast : trim (last ++ after) = trim last :=
    Padded.trim_eq_trim ⟨[], after, rfl, by simp, hafter⟩
  have htrimFirst : trim (before ++ first) = trim first :=
    Padded.trim_eq_trim ⟨before, [], by simp, hbefore, by simp⟩
  calc (fields sep (before ++ body ++ after)).map trim
      = (fields sep (before ++ body)).map trim := by
        rw [hright, hlast, List.map_append, List.map_append, List.map_singleton, htrimLast,
          List.map_singleton]
    _ = (fields sep body).map trim := by
        rw [hleft, hfirst, List.map_cons, List.map_cons, htrimFirst]

/-- The text in any number of opening and closing brackets, with any blanks around these. -/
def Wrapped (body text : List Char) : Prop :=
  ∃ opened closed, Padded (List.replicate opened '(' ++ body ++ List.replicate closed ')') text

/-- What is left inside of blanks and brackets. -/
def unwrap (text : List Char) : List Char :=
  dropEndWhile (· = ')') ((trim text).dropWhile (· = '('))

section Stripping
variable {p : Char → Bool} {core : List Char}

lemma dropWhile_append_of_head (before : List Char) (h : ∀ c ∈ core.head?, p c = false) :
    (before ++ core).dropWhile p = before.dropWhile p ++ core := by
  have hcore : core.dropWhile p = core := by
    cases core with
    | nil => rfl
    | cons c cs => exact List.dropWhile_cons_of_neg (by simp [h c rfl])
  rw [List.dropWhile_append]
  split
  · next hempty => rw [hcore, List.isEmpty_iff.mp hempty, List.nil_append]
  · rfl

lemma dropEndWhile_append_of_last (after : List Char) (h : ∀ c ∈ core.getLast?, p c = false) :
    dropEndWhile p (core ++ after) = core ++ dropEndWhile p after := by
  have hreverse : ∀ c ∈ core.reverse.head?, p c = false := by rwa [List.head?_reverse]
  rw [dropEndWhile, List.reverse_append, dropWhile_append_of_head _ hreverse, List.reverse_append,
    List.reverse_reverse, dropEndWhile]

/-- Dropping from both ends stops at a text that begins and ends with something else. -/
lemma dropWhile_dropEndWhile_around {q : Char → Bool} (hcore : core ≠ [])
    (hfirst : ∀ c ∈ core.head?, p c = false) (hlast : ∀ c ∈ core.getLast?, q c = false)
    (before after : List Char) :
    dropEndWhile q ((before ++ core ++ after).dropWhile p) =
      before.dropWhile p ++ core ++ dropEndWhile q after := by
  have hhead : ∀ c ∈ (core ++ after).head?, p c = false := by
    rwa [List.head?_append_of_ne_nil core hcore]
  have hend : ∀ c ∈ (before.dropWhile p ++ core).getLast?, q c = false := by
    rwa [List.getLast?_append_of_ne_nil _ hcore]
  rw [List.append_assoc, dropWhile_append_of_head before hhead, ← List.append_assoc,
    dropEndWhile_append_of_last after hend]

/-- Of blanks, then brackets, then blanks only blanks are left without the first blanks and the
brackets. -/
lemma isBlank_of_stripped {bracket : Char} (hbracket : isBlank bracket = false)
    {before inner : List Char} (hbefore : ∀ c ∈ before, isBlank c = true)
    (hinner : ∀ c ∈ inner, isBlank c = true) (n : ℕ) :
    ∀ c ∈ ((before ++ (List.replicate n bracket ++ inner)).dropWhile isBlank).dropWhile
      (· = bracket), isBlank c = true := by
  rw [List.dropWhile_append_of_pos hbefore]
  cases n with
  | zero =>
    rw [List.replicate_zero, List.nil_append, List.dropWhile_eq_nil_iff.mpr hinner]
    simp
  | succ n =>
    rw [List.replicate_succ, List.cons_append, List.dropWhile_cons_of_neg (by simp [hbracket]),
      ← List.cons_append, ← List.replicate_succ, List.dropWhile_append_of_pos (by simp)]
    exact fun c hc => hinner c (List.dropWhile_subset _ hc)

lemma isBlank_of_stripped_end {bracket : Char} (hbracket : isBlank bracket = false)
    {after inner : List Char} (hafter : ∀ c ∈ after, isBlank c = true)
    (hinner : ∀ c ∈ inner, isBlank c = true) (n : ℕ) :
    ∀ c ∈ dropEndWhile (· = bracket) (dropEndWhile isBlank
      (inner ++ List.replicate n bracket ++ after)), isBlank c = true := by
  have h := @isBlank_of_stripped bracket hbracket after.reverse inner.reverse
    (by simpa using hafter) (by simpa using hinner) n
  simpa [dropEndWhile] using h

end Stripping

/-- Unwrapping finds the visible part of the text again, perhaps with some of its blanks. -/
lemma Wrapped.padded_unwrap (h : Wrapped body text) (hopen : '(' ∉ body) (hclose : ')' ∉ body)
    (hvisible : trim body ≠ []) : Padded (trim body) (unwrap text) := by
  obtain ⟨opened, closed, before, after, rfl, hbefore, hafter⟩ := h
  obtain ⟨inner, inner', hbody, hinner, hinner'⟩ := padded_trim body
  have hblankFirst : ∀ c ∈ (trim body).head?, isBlank c = false := fun _ => isBlank_of_head?_trim
  have hblankLast : ∀ c ∈ (trim body).getLast?, isBlank c = false := fun _ =>
    isBlank_of_getLast?_trim
  have hother : ∀ {bracket c : Char}, bracket ∉ body → c ∈ trim body →
      decide (c = bracket) = false := by
    intro bracket c hbracket hc
    rw [decide_eq_false_iff_not]
    rintro rfl
    apply hbracket
    rw [hbody]
    simp [hc]
  have hopenFirst : ∀ c ∈ (trim body).head?, decide (c = '(') = false := fun _ hc =>
    hother hopen (List.mem_of_mem_head? hc)
  have hcloseLast : ∀ c ∈ (trim body).getLast?, decide (c = ')') = false := fun _ hc =>
    hother hclose (List.mem_of_getLast? hc)
  generalize trim body = core at *
  subst hbody
  have htext : before ++ (List.replicate opened '(' ++ (inner ++ core ++ inner') ++
      List.replicate closed ')') ++ after =
      (before ++ (List.replicate opened '(' ++ inner)) ++ core ++
        (inner' ++ List.replicate closed ')' ++ after) := by
    simp only [List.append_assoc]
  rw [unwrap, trim, htext,
    dropWhile_dropEndWhile_around hvisible hblankFirst hblankLast,
    dropWhile_dropEndWhile_around hvisible hopenFirst hcloseLast]
  exact ⟨_, _, rfl, isBlank_of_stripped (by decide) hbefore hinner opened,
    isBlank_of_stripped_end (by decide) hafter hinner' closed⟩

theorem Wrapped.map_trim_fields (h : Wrapped body text) (hopen : '(' ∉ body) (hclose : ')' ∉ body)
    (hvisible : trim body ≠ []) (hsep : isBlank sep = false) :
    (fields sep (unwrap text)).map trim = (fields sep body).map trim :=
  ((h.padded_unwrap hopen hclose hvisible).map_trim_fields hsep).trans
    ((padded_trim body).map_trim_fields hsep).symm

end Wrapping

section Words

/-- A numeral of the word with any blanks around it. -/
def WritesWord (field : List Char) (x : Int32) : Prop :=
  ∃ numeral, IsInteger numeral x.toInt ∧ Padded numeral field

lemma IsInteger.isBlank_eq_false {cs : List Char} {n : ℤ} (h : IsInteger cs n) :
    ∀ c ∈ cs, isBlank c = false := by
  intro c hc
  rw [Bool.eq_false_iff]
  intro hblank
  have hother : ∀ d, isBlank d = false → c ≠ d := by
    rintro d hd rfl
    rw [hblank] at hd
    cases hd
  have hdigit : c.isDigit = false := by
    rw [Bool.eq_false_iff, ne_eq, isDigit_iff]
    rintro ⟨hl, hu⟩
    simp [isBlank] at hblank
    omega
  exact h.notMem (hother '+' (by decide)) (hother '-' (by decide)) hdigit hc

lemma readInt32_trim_eq_ok_iff : readInt32 (trim field) = .ok x ↔ WritesWord field x := by
  rw [readInt32_eq_ok_iff]
  constructor
  · intro h
    exact ⟨trim field, h, padded_trim field⟩
  · rintro ⟨numeral, hnumeral, hpadded⟩
    rwa [hpadded.trim_eq_of_visible hnumeral.isBlank_eq_false]

lemma writesWord_trim : WritesWord (trim field) x ↔ WritesWord field x := by
  rw [← readInt32_trim_eq_ok_iff, ← readInt32_trim_eq_ok_iff, ← (padded_trim field).trim_eq_trim]

lemma WritesWord.trim_ne_nil (h : WritesWord field x) : trim field ≠ [] := by
  intro hnil
  have hread := readInt32_trim_eq_ok_iff.mpr h
  rw [hnil] at hread
  cases hread

/-- Neither a blank nor a part of a numeral: commas and brackets do not occur where a word is
written. -/
lemma WritesWord.notMem (h : WritesWord field x) (hblank : isBlank c = false) (hplus : c ≠ '+')
    (hminus : c ≠ '-') (hdigit : c.isDigit = false) : c ∉ field := by
  obtain ⟨numeral, hnumeral, hpadded⟩ := h
  exact hpadded.notMem hblank (hnumeral.notMem hplus hminus hdigit)

lemma WritesWord.comma_notMem (h : WritesWord field x) : ',' ∉ field :=
  h.notMem (by decide) (by decide) (by decide) (by decide)

/-- The text of a word is a numeral of it. -/
lemma writesWord_of_padded (h : Padded (wordText x).toList field) : WritesWord field x :=
  ⟨_, isInteger_toString x.toInt, h⟩

section Lists
variable {parts parts' : List (List Char)} {xs : List Int32}

lemma exists_writesWord (h : List.Forall₂ WritesWord parts xs) :
    ∀ part ∈ parts, ∃ x, WritesWord part x := by
  induction h with
  | nil => simp
  | cons hpart _ ih => exact List.forall_mem_cons.mpr ⟨⟨_, hpart⟩, ih⟩

lemma writesWords_of_map_trim (h : parts.map trim = parts'.map trim)
    (hwords : List.Forall₂ WritesWord parts xs) : List.Forall₂ WritesWord parts' xs := by
  have htrim : ∀ {ps : List (List Char)},
      List.Forall₂ WritesWord (ps.map trim) xs ↔ List.Forall₂ WritesWord ps xs := by
    intro ps
    simp only [List.forall₂_map_left_iff, writesWord_trim]
  rw [← htrim, ← h, htrim]
  exact hwords

lemma fields_joinFields_words (h : List.Forall₂ WritesWord parts xs) (hne : parts ≠ []) :
    fields ',' (joinFields ',' parts) = parts := by
  refine fields_joinFields hne fun part hpart => ?_
  obtain ⟨x, hx⟩ := exists_writesWord h part hpart
  exact hx.comma_notMem

lemma filter_words (h : List.Forall₂ WritesWord parts xs) :
    (parts.filter fun part => trim part ≠ []) = parts := by
  rw [List.filter_eq_self]
  intro part hpart
  obtain ⟨x, hx⟩ := exists_writesWord h part hpart
  exact decide_eq_true hx.trim_ne_nil

/-- Words between commas stay together when brackets and blanks are put around them. -/
lemma writesWords_unwrap (h : Wrapped body text)
    (hwords : List.Forall₂ WritesWord (fields ',' body) xs) :
    List.Forall₂ WritesWord (fields ',' (unwrap text)) xs := by
  have hbracket : ∀ bracket ∈ ['(', ')'], bracket ∉ body := by
    intro bracket hmem
    obtain ⟨hblank, hplus, hminus, hdigit, hcomma⟩ : isBlank bracket = false ∧ bracket ≠ '+' ∧
        bracket ≠ '-' ∧ bracket.isDigit = false ∧ bracket ≠ ',' := by
      rcases List.mem_pair.mp hmem with rfl | rfl <;> decide
    rw [← joinFields_fields ',' body]
    refine notMem_joinFields hcomma fun part hpart => ?_
    obtain ⟨x, hx⟩ := exists_writesWord hwords part hpart
    exact hx.notMem hblank hplus hminus hdigit
  have hvisible : trim body ≠ [] := by
    intro hnil
    have hempty : (fields ',' body).map trim = (fields ',' (trim body)).map trim :=
      (padded_trim body).map_trim_fields (by decide)
    obtain ⟨part, rest, hfields⟩ := List.exists_cons_of_ne_nil (fields_ne_nil ',' body)
    rw [hnil, hfields] at hempty
    obtain ⟨x, hx⟩ := exists_writesWord hwords part (by simp [hfields])
    exact hx.trim_ne_nil (List.cons.inj hempty).1
  refine writesWords_of_map_trim ?_ hwords
  exact (h.map_trim_fields (hbracket '(' (by simp)) (hbracket ')' (by simp)) hvisible
    (by decide)).symm

end Lists
end Words

section Decoration

/-- Any blanks around each field, any brackets around them all, and any blanks around these. -/
def Decorates (plain text : List Char) : Prop :=
  ∃ parts, List.Forall₂ Padded (fields ',' plain) parts ∧ Wrapped (joinFields ',' parts) text

/-- Any blanks around each field, and any blank or empty fields before, between and behind them. -/
inductive Interspersed : List (List Char) → List (List Char) → Prop
  | nil : Interspersed [] []
  | blank {part : List Char} {plain parts : List (List Char)}
      (hpart : ∀ c ∈ part, isBlank c = true) (h : Interspersed plain parts) :
      Interspersed plain (part :: parts)
  | field {part field : List Char} {plain parts : List (List Char)} (hpart : Padded field part)
      (h : Interspersed plain parts) : Interspersed (field :: plain) (part :: parts)

lemma Decorates.words {plain : List Char} {xs : List Int32} (h : Decorates plain text)
    (hplain : fields ',' plain = xs.map fun x => (wordText x).toList) :
    List.Forall₂ WritesWord (fields ',' (unwrap text)) xs := by
  obtain ⟨parts, hparts, hwrapped⟩ := h
  have hne : parts ≠ [] := by
    rintro rfl
    exact fields_ne_nil ',' plain (List.forall₂_nil_right_iff.mp hparts)
  have hwords : List.Forall₂ WritesWord parts xs := by
    rw [hplain, List.forall₂_map_left_iff] at hparts
    exact List.Forall₂.flip (hparts.imp fun _ _ hpart => writesWord_of_padded hpart)
  exact writesWords_unwrap hwrapped ((fields_joinFields_words hwords hne).symm ▸ hwords)

lemma Interspersed.words {xs : List Int32} {parts : List (List Char)}
    (h : Interspersed (xs.map fun x => (wordText x).toList) parts) :
    (∀ part ∈ parts, ',' ∉ part) ∧
      List.Forall₂ WritesWord (parts.filter fun part => trim part ≠ []) xs := by
  generalize hplain : xs.map (fun x => (wordText x).toList) = plain at h
  induction h generalizing xs with
  | nil =>
    obtain rfl := List.map_eq_nil_iff.mp hplain
    simp
  | blank hpart _ ih =>
    obtain ⟨hcomma, hwords⟩ := ih hplain
    have hpadded := padded_nil_iff.mpr hpart
    have hempty := hpadded.trim_eq_of_visible (by simp)
    refine ⟨List.forall_mem_cons.mpr ⟨hpadded.notMem (by decide) (by simp), hcomma⟩, ?_⟩
    rwa [List.filter_cons_of_neg (by simp [hempty])]
  | field hpart _ ih =>
    obtain ⟨x, rest, rfl, rfl, hrest⟩ := List.map_eq_cons_iff.mp hplain
    obtain ⟨hcomma, hwords⟩ := ih hrest
    have hword := writesWord_of_padded hpart
    refine ⟨List.forall_mem_cons.mpr ⟨hword.comma_notMem, hcomma⟩, ?_⟩
    rw [List.filter_cons_of_pos (by simp [hword.trim_ne_nil])]
    exact hwords.cons hword

end Decoration
end VerifierBench.Text
