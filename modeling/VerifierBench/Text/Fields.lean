/-! Separated fields: cutting a text at every separator or only at the first one. -/
namespace VerifierBench.Text

/-- The fields of a text between separators; a text without separator is one field. -/
def fields (sep : Char) : List Char → List (List Char)
  | [] => [[]]
  | c :: cs =>
    if c = sep then [] :: fields sep cs
    else match fields sep cs with
      | [] => [[c]]
      | f :: fs => (c :: f) :: fs

/-- Puts one separator between consecutive fields. -/
def joinFields (sep : Char) : List (List Char) → List Char
  | [] => []
  | [f] => f
  | f :: g :: fs => f ++ sep :: joinFields sep (g :: fs)

/-- The texts before and after the first separator, if there is one. -/
def cut (sep : Char) : List Char → Option (List Char × List Char)
  | [] => none
  | c :: cs =>
    if c = sep then some ([], cs)
    else (cut sep cs).map fun (before, after) => (c :: before, after)

/-- The rest of a text that begins with the given characters. -/
def dropStart : List Char → List Char → Option (List Char)
  | [], cs => some cs
  | _ :: _, [] => none
  | p :: ps, c :: cs => if p = c then dropStart ps cs else none

theorem fields_ne_nil (sep : Char) (cs : List Char) : fields sep cs ≠ [] := by
  cases cs with
  | nil => simp [fields]
  | cons c cs =>
    simp only [fields]
    split
    · simp
    · split <;> simp

theorem joinFields_fields (sep : Char) (cs : List Char) : joinFields sep (fields sep cs) = cs := by
  induction cs with
  | nil => rfl
  | cons c cs ih =>
    have hne := fields_ne_nil sep cs
    simp only [fields]
    by_cases hc : c = sep
    · cases hf : fields sep cs with
      | nil => exact absurd hf hne
      | cons f fs => rw [if_pos hc, joinFields, ← hf, ih, hc]; rfl
    · cases hf : fields sep cs with
      | nil => exact absurd hf hne
      | cons f fs =>
        rw [hf] at ih
        cases fs with
        | nil => simp_all [joinFields]
        | cons g gs => simp_all [joinFields]

theorem cut_eq_some {sep : Char} {cs before after : List Char}
    (h : cut sep cs = some (before, after)) : cs = before ++ sep :: after ∧ sep ∉ before := by
  induction cs generalizing before with
  | nil => simp [cut] at h
  | cons c cs ih =>
    simp only [cut] at h
    split at h
    · cases h; simp_all
    · obtain ⟨⟨b, a⟩, hb, he⟩ := Option.map_eq_some_iff.1 h
      cases he
      obtain ⟨rfl, hn⟩ := ih hb
      simp_all [eq_comm]

theorem dropStart_eq_some {p cs rest : List Char} (h : dropStart p cs = some rest) :
    cs = p ++ rest := by
  induction p generalizing cs with
  | nil => simpa [dropStart] using h
  | cons x xs ih =>
    cases cs with
    | nil => simp [dropStart] at h
    | cons c cs =>
      simp only [dropStart] at h
      split at h
      · simp_all [ih h]
      · simp at h

end VerifierBench.Text
