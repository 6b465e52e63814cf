import Mathlib.Tactic.Lemma
import VerifierBench.Text.Fields

/-! Separated fields from the other side: texts that are put together from parts are cut into these
parts again, as long as the parts are free of the separator. -/
namespace VerifierBench.Text
variable {sep : Char} {before field after : List Char}

lemma cut_append (h : sep ∉ before) (after : List Char) :
    cut sep (before ++ sep :: after) = some (before, after) := by
  induction before with
  | nil => simp [cut]
  | cons c before ih =>
    obtain ⟨hc, hbefore⟩ := List.ne_and_not_mem_of_not_mem_cons h
    simp [cut, hc.symm, ih hbefore]

lemma dropStart_append (start rest : List Char) :
    dropStart start (start ++ rest) = some rest := by
  induction start with
  | nil => rfl
  | cons c start ih => simpa [dropStart] using ih

lemma fields_of_notMem (h : sep ∉ field) : fields sep field = [field] := by
  induction field with
  | nil => rfl
  | cons c field ih =>
    obtain ⟨hc, hfield⟩ := List.ne_and_not_mem_of_not_mem_cons h
    simp [fields, hc.symm, ih hfield]

/-- A field ends at the first separator behind it. -/
lemma fields_append (h : sep ∉ field) (cs : List Char) :
    fields sep (field ++ sep :: cs) = field :: fields sep cs := by
  induction field with
  | nil => simp [fields]
  | cons c field ih =>
    obtain ⟨hc, hfield⟩ := List.ne_and_not_mem_of_not_mem_cons h
    simp [fields, hc.symm, ih hfield]

/-- Joined fields are cut apart again if none of them contains the separator. -/
theorem fields_joinFields {parts : List (List Char)} (hne : parts ≠ [])
    (h : ∀ part ∈ parts, sep ∉ part) : fields sep (joinFields sep parts) = parts := by
  induction parts with
  | nil => exact absurd rfl hne
  | cons part parts ih =>
    obtain ⟨hpart, hparts⟩ := List.forall_mem_cons.mp h
    cases parts with
    | nil => exact fields_of_notMem hpart
    | cons next parts =>
      rw [joinFields, fields_append hpart, ih (List.cons_ne_nil next parts) hparts]

/-- The last field reaches to the end of the text. -/
lemma joinFields_concat_append (sep : Char) (parts : List (List Char)) (part rest : List Char) :
    joinFields sep (parts ++ [part ++ rest]) = joinFields sep (parts ++ [part]) ++ rest := by
  induction parts with
  | nil => rfl
  | cons first parts ih =>
    cases parts with
    | nil => simp [joinFields]
    | cons next parts =>
      simp only [List.cons_append] at ih
      simp only [List.cons_append, joinFields, ih, List.append_assoc]

lemma joinFields_eq_intercalate (sep : Char) (parts : List (List Char)) :
    joinFields sep parts = [sep].intercalate parts := by
  induction parts with
  | nil => rfl
  | cons part parts ih =>
    cases parts with
    | nil => simp [joinFields]
    | cons next parts => simp [joinFields, ih, List.intercalate_cons_cons]

lemma notMem_of_mem_fields {cs : List Char} (h : field ∈ fields sep cs) : sep ∉ field := by
  induction cs generalizing field with
  | nil =>
    rw [List.mem_singleton.mp h]
    exact List.not_mem_nil
  | cons c cs ih =>
    rw [fields] at h
    split at h
    · rcases List.mem_cons.mp h with rfl | hrest
      · exact List.not_mem_nil
      · exact ih hrest
    · next hc =>
      cases hfields : fields sep cs with
      | nil => exact absurd hfields (fields_ne_nil sep cs)
      | cons first rest =>
        rw [hfields] at h ih
        rcases List.mem_cons.mp h with rfl | hrest
        · exact List.not_mem_cons_of_ne_of_not_mem (Ne.symm hc) (ih List.mem_cons_self)
        · exact ih (List.mem_cons_of_mem first hrest)

/-- Text without separators in front of a text belongs to its first field. -/
lemma exists_fields_append_left (h : sep ∉ before) (cs : List Char) : ∃ first rest,
    fields sep cs = first :: rest ∧ fields sep (before ++ cs) = (before ++ first) :: rest := by
  obtain ⟨first, rest, hfields⟩ := List.exists_cons_of_ne_nil (fields_ne_nil sep cs)
  refine ⟨first, rest, hfields, ?_⟩
  induction before with
  | nil => exact hfields
  | cons c before ih =>
    obtain ⟨hc, hbefore⟩ := List.ne_and_not_mem_of_not_mem_cons h
    simp [fields, hc.symm, ih hbefore]

/-- Text without separators behind a text belongs to its last field. -/
lemma exists_fields_append_right (h : sep ∉ after) (cs : List Char) : ∃ init last,
    fields sep cs = init ++ [last] ∧ fields sep (cs ++ after) = init ++ [last ++ after] := by
  have hsplit := (List.dropLast_concat_getLast (fields_ne_nil sep cs)).symm
  generalize (fields sep cs).dropLast = init at hsplit
  generalize (fields sep cs).getLast _ = last at hsplit
  refine ⟨init, last, hsplit, ?_⟩
  have hfree : ∀ part ∈ init ++ [last], sep ∉ part := by
    rw [← hsplit]
    exact fun part => notMem_of_mem_fields
  have hjoin : cs ++ after = joinFields sep (init ++ [last ++ after]) := by
    rw [joinFields_concat_append, ← hsplit, joinFields_fields]
  rw [hjoin]
  refine fields_joinFields (by simp) fun part hpart => ?_
  rcases List.mem_append.mp hpart with hinit | hlast
  · exact hfree part (List.mem_append_left _ hinit)
  · rw [List.mem_singleton.mp hlast, List.mem_append, not_or]
    exact ⟨hfree last (by simp), h⟩

lemma notMem_joinFields {c : Char} {parts : List (List Char)} (hsep : c ≠ sep)
    (h : ∀ part ∈ parts, c ∉ part) : c ∉ joinFields sep parts := by
  induction parts with
  | nil => exact List.not_mem_nil
  | cons part parts ih =>
    obtain ⟨hpart, hparts⟩ := List.forall_mem_cons.mp h
    cases parts with
    | nil => exact hpart
    | cons next parts =>
      rw [joinFields, List.mem_append, List.mem_cons, not_or, not_or]
      exact ⟨hpart, hsep, ih hparts⟩

lemma infix_joinFields {parts : List (List Char)} (h : field ∈ parts) :
    field <:+: joinFields sep parts := by
  induction parts with
  | nil => cases h
  | cons part parts ih =>
    cases parts with
    | nil =>
      rw [List.mem_singleton.mp h]
      exact List.infix_rfl
    | cons next parts =>
      rw [joinFields]
      rcases List.mem_cons.mp h with rfl | hrest
      · exact (List.prefix_append _ _).isInfix
      · exact (ih hrest).trans ((List.suffix_cons sep _).trans (List.suffix_append part _)).isInfix

end VerifierBench.Text
