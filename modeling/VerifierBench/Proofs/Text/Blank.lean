import Mathlib.Data.List.TakeWhile
import Mathlib.Tactic.Lemma
import VerifierBench.Text.Blank

/-! Blanks around texts, and letter case. Trimming finds the text between the blanks, whatever its
inside; in small letters a text has one spelling. -/
namespace VerifierBench.Text
variable {body cs before after : List Char} {c d : Char}

/-- The text with any blanks before and after it. -/
def Padded (body cs : List Char) : Prop :=
  ∃ before after, cs = before ++ body ++ after ∧ (∀ c ∈ before, isBlank c = true) ∧
    ∀ c ∈ after, isBlank c = true

section Trimming

lemma padded_self (cs : List Char) : Padded cs cs := ⟨[], [], by simp⟩

lemma Padded.trans {mid : List Char} (h : Padded body mid) (h' : Padded mid cs) :
    Padded body cs := by
  obtain ⟨before, after, rfl, hbefore, hafter⟩ := h
  obtain ⟨before', after', rfl, hbefore', hafter'⟩ := h'
  refine ⟨before' ++ before, after ++ after', by simp, ?_, ?_⟩
  · intro c hc
    exact (List.mem_append.mp hc).elim (hbefore' c) (hbefore c)
  · intro c hc
    exact (List.mem_append.mp hc).elim (hafter c) (hafter' c)

lemma dropEndWhile_append_blanks (h : ∀ c ∈ after, isBlank c = true) (cs : List Char) :
    dropEndWhile isBlank (cs ++ after) = dropEndWhile isBlank cs := by
  rw [dropEndWhile, dropEndWhile, List.reverse_append, List.dropWhile_append_of_pos]
  simpa using h

/-- What is dropped at the end is blank. -/
lemma exists_dropEndWhile (cs : List Char) :
    ∃ after, cs = dropEndWhile isBlank cs ++ after ∧ ∀ c ∈ after, isBlank c = true := by
  refine ⟨(cs.reverse.takeWhile isBlank).reverse, ?_, ?_⟩
  · rw [dropEndWhile, ← List.reverse_append, List.takeWhile_append_dropWhile, List.reverse_reverse]
  · intro c hc
    exact List.all_eq_true.mp List.all_takeWhile c (List.mem_reverse.mp hc)

lemma padded_trim (cs : List Char) : Padded (trim cs) cs := by
  obtain ⟨after, hafter, hblank⟩ := exists_dropEndWhile (cs.dropWhile isBlank)
  refine ⟨cs.takeWhile isBlank, after, ?_, List.all_eq_true.mp List.all_takeWhile, hblank⟩
  rw [trim, List.append_assoc, ← hafter, List.takeWhile_append_dropWhile]

lemma dropEndWhile_eq_self (h : ∀ c ∈ cs.getLast?, isBlank c = false) :
    dropEndWhile isBlank cs = cs := by
  rw [dropEndWhile]
  rw [← List.head?_reverse] at h
  cases hrev : cs.reverse with
  | nil => simpa using hrev.symm
  | cons d ds =>
    rw [List.dropWhile_cons_of_neg (by simp [h d (by simp [hrev])]), ← hrev, List.reverse_reverse]

/-- Trimming leaves a text that neither begins nor ends with a blank. -/
lemma Padded.trim_eq (h : Padded body cs) (hfirst : ∀ c ∈ body.head?, isBlank c = false)
    (hlast : ∀ c ∈ body.getLast?, isBlank c = false) : trim cs = body := by
  obtain ⟨before, after, rfl, hbefore, hafter⟩ := h
  rw [trim, List.append_assoc, List.dropWhile_append_of_pos hbefore]
  cases body with
  | nil =>
    rw [List.nil_append, List.dropWhile_eq_nil_iff.mpr hafter]
    rfl
  | cons c cs =>
    rw [List.cons_append, List.dropWhile_cons_of_neg (by simp [hfirst c rfl]), ← List.cons_append,
      dropEndWhile_append_blanks hafter, dropEndWhile_eq_self hlast]

lemma Padded.trim_eq_of_visible (h : Padded body cs) (hvisible : ∀ c ∈ body, isBlank c = false) :
    trim cs = body :=
  h.trim_eq (fun c hc => hvisible c (List.mem_of_mem_head? hc))
    fun c hc => hvisible c (List.mem_of_getLast? hc)

lemma padded_nil_iff : Padded [] cs ↔ ∀ c ∈ cs, isBlank c = true := by
  constructor
  · rintro ⟨before, after, rfl, hbefore, hafter⟩ c hc
    rw [List.append_nil] at hc
    exact (List.mem_append.mp hc).elim (hbefore c) (hafter c)
  · intro h
    exact ⟨cs, [], by simp, h, by simp⟩

lemma Padded.notMem (h : Padded body cs) (hblank : isBlank c = false) (hbody : c ∉ body) :
    c ∉ cs := by
  obtain ⟨before, after, rfl, hbefore, hafter⟩ := h
  intro hc
  simp only [List.mem_append] at hc
  rcases hc with (hc | hc) | hc
  · exact absurd (hbefore c hc) (by simp [hblank])
  · exact hbody hc
  · exact absurd (hafter c hc) (by simp [hblank])

lemma isBlank_of_head?_trim (hc : c ∈ (trim cs).head?) : isBlank c = false := by
  obtain ⟨after, hafter, -⟩ := exists_dropEndWhile (cs.dropWhile isBlank)
  have hfirst : c ∈ (cs.dropWhile isBlank).head? := by
    rw [hafter, List.head?_append, ← trim, Option.mem_def.mp hc]
    rfl
  have hnot := List.head?_dropWhile_not isBlank cs
  rw [Option.mem_def.mp hfirst] at hnot
  simpa using hnot

lemma isBlank_of_getLast?_trim (hc : c ∈ (trim cs).getLast?) : isBlank c = false := by
  rw [trim, dropEndWhile, List.getLast?_reverse] at hc
  have hnot := List.head?_dropWhile_not isBlank (cs.dropWhile isBlank).reverse
  rw [Option.mem_def.mp hc] at hnot
  simpa using hnot

/-- Blanks around a text change nothing about what trimming leaves. -/
lemma Padded.trim_eq_trim (h : Padded body cs) : trim cs = trim body :=
  ((padded_trim body).trans h).trim_eq (fun _ => isBlank_of_head?_trim)
    fun _ => isBlank_of_getLast?_trim

end Trimming

section Letters

lemma toNat_toLower (c : Char) :
    c.toLower.toNat = if 65 ≤ c.toNat ∧ c.toNat ≤ 90 then c.toNat + 32 else c.toNat := by
  delta Char.toLower
  split
  · next h =>
    have hbounds : 65 ≤ c.toNat ∧ c.toNat ≤ 90 :=
      ⟨UInt32.le_iff_toNat_le.mp h.1, UInt32.le_iff_toNat_le.mp h.2⟩
    have hlt : c.val.toNat + 32 < 4294967296 := by
      change c.toNat + 32 < 4294967296
      omega
    rw [if_pos hbounds]
    exact (UInt32.toNat_add c.val 32).trans (Nat.mod_eq_of_lt hlt)
  · next h =>
    rw [ge_iff_le, UInt32.le_iff_toNat_le, UInt32.le_iff_toNat_le] at h
    exact (if_neg h).symm

lemma toLower_toLower (c : Char) : c.toLower.toLower = c.toLower := by
  have h := toNat_toLower c
  have hagain := toNat_toLower c.toLower
  rw [← Char.toNat_inj]
  split at h <;> split at hagain <;> omega

lemma isBlank_toLower (c : Char) : isBlank c.toLower = isBlank c := by
  have h := toNat_toLower c
  split at h
  · have hupper : isBlank c = false := by simp [isBlank]; omega
    have hlower : isBlank c.toLower = false := by simp [isBlank, h]; omega
    rw [hlower, hupper]
  · rw [Char.toNat_inj.mp h]

end Letters
end VerifierBench.Text
