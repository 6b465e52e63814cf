import Mathlib.Tactic.Lemma
import VerifierBench.Json.Decode

/-! Faithful JSON forms: reading what was written gives the value back. Optional values need more, as
null stands for none: no value may be written as null. -/
namespace VerifierBench.Json
variable {α : Type} {write : α → Json} {read : Json → Option α}

/-- Reading undoes writing, and null is left for the values that are absent. -/
structure Faithful (write : α → Json) (read : Json → Option α) : Prop where
  read_write : ∀ a, read (write a) = some a
  write_ne_null : ∀ a, write a ≠ null

/-- Different values have different JSON forms. -/
lemma Faithful.injective (h : Faithful write read) {a b : α} (hab : write a = write b) : a = b := by
  have hread := congrArg read hab
  rw [h.read_write, h.read_write] at hread
  exact Option.some.inj hread

lemma faithful_int32 : Faithful ofInt32 int32? where
  read_write x := by
    rw [ofInt32, int32?, if_pos (isInt32_toInt x), Int32.ofInt_toInt]
  write_ne_null x := by
    rw [ofInt32]
    exact Json.noConfusion

lemma faithful_uint64 : Faithful ofUInt64 uint64? where
  read_write n := by
    rw [ofUInt64, uint64?, if_pos (isUInt64_toNat n), Int.toNat_natCast, UInt64.ofNat_toNat]
  write_ne_null n := by
    rw [ofUInt64]
    exact Json.noConfusion

lemma faithful_bool : Faithful Json.bool bool? := ⟨fun _ => rfl, fun _ => Json.noConfusion⟩

lemma faithful_string : Faithful str string? := ⟨fun _ => rfl, fun _ => Json.noConfusion⟩

theorem Faithful.ofList (h : Faithful write read) : Faithful (Json.ofList write) (list? read) where
  read_write xs := by
    rw [Json.ofList, list?]
    induction xs with
    | nil => rfl
    | cons x xs ih => rw [List.map_cons, List.mapM_cons, h.read_write, ih]; rfl
  write_ne_null xs := by
    rw [Json.ofList]
    exact Json.noConfusion

lemma nullable?_of_ne_null {j : Json} (h : j ≠ null) : nullable? read j = (read j).map some := by
  cases j with
  | null => exact absurd rfl h
  | _ => rfl

/-- Looking up a member of an object in which every name stands once. -/
lemma member?_of_mem {entries : List (String × Json)} (hnodup : (entries.map Prod.fst).Nodup)
    {entry : String × Json} (h : entry ∈ entries) : member? entries entry.1 = some entry.2 := by
  induction entries with
  | nil => cases h
  | cons first entries ih =>
    obtain ⟨hfirst, hrest⟩ := List.nodup_cons.mp hnodup
    rcases List.mem_cons.mp h with rfl | h
    · simp [member?]
    · have hne : first.1 ≠ entry.1 := fun hname => hfirst (hname ▸ List.mem_map_of_mem h)
      rw [← ih hrest h]
      simp [member?, hne]

/-- The fields of an object in which every name stands once. -/
theorem members?_of_nodup {entries : List (String × Json)} (hnodup : (entries.map Prod.fst).Nodup) :
    members? (entries.map Prod.fst) (obj entries) = some (entries.map fun entry => some entry.2) := by
  rw [members?, List.map_map]
  exact congrArg some (List.map_congr_left fun _ h => member?_of_mem hnodup h)

/-- A present value, an empty list among them, is never taken for an absent one. -/
theorem Faithful.ofOption (h : Faithful write read) (x : Option α) :
    optional? read (some (Json.ofOption write x)) = some x := by
  cases x with
  | none => rfl
  | some a =>
    rw [Json.ofOption, optional?, nullable?_of_ne_null (h.write_ne_null a), h.read_write]
    rfl

end VerifierBench.Json
