import VerifierBench.CommandLine.Inputs
import VerifierBench.Proofs.Text.Listing

/-! What is read from lists on a command line. Three readers take a list apart in different ways; each
reads exactly the words that are written in its fields, so they agree wherever they share the fields. -/
namespace VerifierBench

section Traversal
variable {α β : Type} {f : α → Except Error β} {as : List α} {bs : List β}

/-- A list is read exactly if all of its items are. -/
lemma mapM_eq_ok_iff : as.mapM f = .ok bs ↔ List.Forall₂ (fun a b => f a = .ok b) as bs := by
  induction as generalizing bs with
  | nil =>
    rw [List.mapM_nil, List.forall₂_nil_left_iff]
    exact ⟨fun h => by cases h; rfl, fun h => h ▸ rfl⟩
  | cons a as ih =>
    rw [List.mapM_cons, List.forall₂_cons_left_iff]
    constructor
    · intro h
      obtain ⟨b, hb, hrest⟩ := exists_of_bind_eq_ok h
      obtain ⟨rest, has, hbs⟩ := exists_of_bind_eq_ok hrest
      cases hbs
      exact ⟨b, rest, hb, ih.mp has, rfl⟩
    · rintro ⟨b, rest, hb, has, rfl⟩
      rw [hb, ih.mpr has]
      rfl

lemma bind_eq_ok_iff {x : Except Error α} {g : α → Except Error β} {b : β} :
    (x >>= g) = .ok b ↔ ∃ a, x = .ok a ∧ g a = .ok b := by
  refine ⟨exists_of_bind_eq_ok, ?_⟩
  rintro ⟨a, rfl, hb⟩
  exact hb

lemma mapM_toOption (f : α → Except Error β) (as : List α) :
    as.mapM (fun a => (f a).toOption) = (as.mapM f).toOption := by
  induction as with
  | nil => rfl
  | cons a as ih =>
    rw [List.mapM_cons, List.mapM_cons, ih]
    cases f a with
    | error cause => rfl
    | ok b => cases as.mapM f <;> rfl

end Traversal

namespace CommandLine
open Text
variable {part : List Char} {x : Int32} {text : String} {v : Sextuple} {xs : List Int32}

lemma readNumeral_eq_ok_iff : readNumeral readInt32 part = .ok x ↔ WritesWord part x := by
  rw [← readInt32_trim_eq_ok_iff, readNumeral]
  cases readInt32 (trim part) <;> simp [Except.mapError]

lemma mapM_readNumeral_eq_ok_iff {parts : List (List Char)} :
    parts.mapM (readNumeral readInt32) = .ok xs ↔ List.Forall₂ WritesWord parts xs := by
  simp only [mapM_eq_ok_iff, readNumeral_eq_ok_iff]

/-- Blank fields are left out, all others hold the words. -/
theorem readWords_eq_ok_iff : readWords text = .ok xs ↔
    List.Forall₂ WritesWord ((fields ',' text.toList).filter fun part => trim part ≠ []) xs := by
  rw [readWords, mapM_readNumeral_eq_ok_iff, List.filter_map, List.forall₂_map_left_iff]
  simp only [writesWord_trim]
  rfl

/-- The fields of the unwrapped text hold the six words. -/
theorem read_eq_ok_iff_fields : Sextuple.read text = .ok v ↔
    List.Forall₂ WritesWord (fields ',' (unwrap text.toList)) v.toList := by
  have hread : (fun part => (readInt32 (trim part)).toOption) =
      fun part => (readNumeral readInt32 part).toOption := by
    funext part
    rw [readNumeral]
    cases readInt32 (trim part) <;> rfl
  have hunwrap : Sextuple.ofText? text.toList =
      ((fields ',' (unwrap text.toList)).mapM (readNumeral readInt32)).toOption.bind
        Slots.ofList? := by
    rw [← mapM_toOption, ← hread, Sextuple.ofText?, unwrap]
    cases (List.mapM _ _ : Option (List Int32)) <;> rfl
  rw [Sextuple.read, hunwrap, ← mapM_readNumeral_eq_ok_iff]
  cases (fields ',' (unwrap text.toList)).mapM (readNumeral readInt32) with
  | error cause => simp [Except.toOption]
  | ok words =>
    simp only [Except.toOption, Option.bind_some, Except.ok.injEq]
    constructor
    · intro h
      cases hwords : Slots.ofList? words with
      | none => simp [hwords] at h
      | some w =>
        rw [hwords] at h
        cases h
        exact (Slots.toList_of_ofList? hwords).symm
    · rintro rfl
      simp

lemma readInputs_single (text : String) : readInputs [text] = Sextuple.read text := rfl

/-- Six texts are read exactly if each of them writes its word. -/
theorem readInputs_six_eq_ok_iff {a b c d e f : String} :
    readInputs [a, b, c, d, e, f] = .ok v ↔
      List.Forall₂ WritesWord ([a, b, c, d, e, f].map String.toList) v.toList := by
  simp only [readInputs, readWord, bind_eq_ok_iff, readNumeral_eq_ok_iff]
  constructor
  · rintro ⟨xa, ha, xb, hb, xc, hc, xd, hd, xe, he, xf, hf, hv⟩
    cases hv
    exact .cons ha (.cons hb (.cons hc (.cons hd (.cons he (.cons hf .nil)))))
  · intro h
    simp only [Slots.toList, List.map_cons, List.forall₂_cons] at h
    obtain ⟨ha, hb, hc, hd, he, hf, -⟩ := h
    exact ⟨v.a, ha, v.b, hb, v.c, hc, v.d, hd, v.e, he, v.f, hf, rfl⟩

lemma toList_intercalate_comma (texts : List String) :
    (",".intercalate texts).toList = joinFields ',' (texts.map String.toList) := by
  rw [String.toList_intercalate, joinFields_eq_intercalate]
  rfl

lemma fields_text (v : Sextuple) :
    fields ',' v.text.toList = v.toList.map fun x => (wordText x).toList := by
  have hwords : List.Forall₂ WritesWord (v.toList.map fun x => (wordText x).toList) v.toList := by
    rw [List.forall₂_map_left_iff, List.forall₂_same]
    exact fun x _ => writesWord_of_padded (padded_self _)
  rw [Sextuple.text, toList_intercalate_comma, List.map_map]
  exact fields_joinFields_words hwords (by simp [Slots.toList])

/-- The text of a sextuple is read back with any blanks and brackets around it. Six texts that are read
one by one are read alike when commas join them, as a sextuple and as a list of words. A list of words is
read back from its text with any blanks and blank fields between the commas. -/
theorem readers_agree :
    (∀ (v : Sextuple) (text : String), Decorates v.text.toList text.toList →
      Sextuple.read text = .ok v ∧ readInputs [text] = .ok v) ∧
    (∀ a b c d e f v, readInputs [a, b, c, d, e, f] = .ok v →
      readInputs [",".intercalate [a, b, c, d, e, f]] = .ok v ∧
      readWords (",".intercalate [a, b, c, d, e, f]) = .ok v.toList) ∧
    ∀ (xs : List Int32) parts, Interspersed (xs.map fun x => (wordText x).toList) parts →
      readWords (String.ofList (joinFields ',' parts)) = .ok xs := by
  refine ⟨fun v text h => ?_, fun a b c d e f v h => ?_, fun xs parts h => ?_⟩
  · have hread := read_eq_ok_iff_fields.mpr (h.words (fields_text v))
    exact ⟨hread, (readInputs_single text).trans hread⟩
  · have hwords := readInputs_six_eq_ok_iff.mp h
    generalize htexts : [a, b, c, d, e, f] = texts at hwords ⊢
    have hne : texts.map String.toList ≠ [] := by simp [← htexts]
    have hfields : fields ',' (",".intercalate texts).toList = texts.map String.toList := by
      rw [toList_intercalate_comma, fields_joinFields_words hwords hne]
    have hsingle : Wrapped (",".intercalate texts).toList (",".intercalate texts).toList :=
      ⟨0, 0, by simpa using padded_self _⟩
    rw [readInputs_single, read_eq_ok_iff_fields, readWords_eq_ok_iff]
    refine ⟨writesWords_unwrap hsingle ?_, ?_⟩
    · rwa [hfields]
    · rwa [hfields, filter_words hwords]
  · obtain ⟨hcomma, hwords⟩ := h.words
    rw [readWords_eq_ok_iff, String.toList_ofList]
    cases parts with
    | nil => simpa [joinFields, fields] using hwords
    | cons part parts => rwa [fields_joinFields (by simp) hcomma]

/-- The ends of the range, a plus sign and blanks survive the commas. -/
theorem readers_agree_ends :
    readInputs [" 1", "-2147483648\t", "0", "+2", " 2147483647 ", "-0"] =
      .ok ⟨1, -2147483648, 0, 2, 2147483647, 0⟩ ∧
    readInputs [",".intercalate [" 1", "-2147483648\t", "0", "+2", " 2147483647 ", "-0"]] =
      .ok ⟨1, -2147483648, 0, 2, 2147483647, 0⟩ := by
  have hsix : readInputs [" 1", "-2147483648\t", "0", "+2", " 2147483647 ", "-0"] =
      .ok ⟨1, -2147483648, 0, 2, 2147483647, 0⟩ := rfl
  obtain ⟨-, hjoined, -⟩ := readers_agree
  exact ⟨hsix, (hjoined _ _ _ _ _ _ _ hsix).1⟩

end CommandLine
end VerifierBench
