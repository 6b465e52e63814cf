import Mathlib.Data.List.Nodup
import VerifierBench.Proofs.Json.Faithful

/-! Forms of JSON values: where records stand and which of their fields may be left out. Readers of
records do not notice members of unknown names, nor whether an optional field is null or absent, and
that holds at every depth. -/
namespace VerifierBench.Json

/-- The JSON form of a type, as far as records go: which fields a record has, by name, and which of them
are optional; which payload each variant has. -/
inductive Form
  | plain
  | record (fields : List (String × Form)) (optional : List String)
  | variants (payloads : List (String × Form))

namespace Form

/-- The changes that a form tolerates: one member of an unknown name more, one optional field left out
that was null, or such a change inside a field, an item or a payload. -/
inductive Tolerates : Form → Json → Json → Prop
  | unknown {fields optional before after name value} (h : name ∉ fields.map Prod.fst) :
      Tolerates (record fields optional) (obj (before ++ after))
        (obj (before ++ (name, value) :: after))
  | absent {fields optional members name} (h : name ∈ optional)
      (hnull : member? members name = some null) :
      Tolerates (record fields optional) (obj members)
        (obj (members.filter fun entry => entry.1 ≠ name))
  | field {fields optional before after name form v w} (h : (name, form) ∈ fields)
      (inner : Tolerates form v w) :
      Tolerates (record fields optional) (obj (before ++ (name, v) :: after))
        (obj (before ++ (name, w) :: after))
  | item {fields optional before after name form v w}
      (h : fields[before.length]? = some (name, form)) (inner : Tolerates form v w) :
      Tolerates (record fields optional) (arr (before ++ v :: after)) (arr (before ++ w :: after))
  | payload {payloads name form v w} (h : (name, form) ∈ payloads) (inner : Tolerates form v w) :
      Tolerates (variants payloads) (obj [(name, v)]) (obj [(name, w)])

mutual

/-- A value written in full: every record is an object with exactly the fields of its form. -/
inductive Describes : Form → Json → Prop
  | plain {j} : Describes plain j
  | record {fields optional members} (h : DescribesFields optional fields members) :
      Describes (record fields optional) (obj members)
  | unit {payloads name} (h : name ∉ payloads.map Prod.fst) : Describes (variants payloads) (str name)
  | payload {payloads name form v} (h : (name, form) ∈ payloads) (inner : Describes form v) :
      Describes (variants payloads) (obj [(name, v)])

/-- The fields of a record in order, an optional one perhaps null. -/
inductive DescribesFields : List String → List (String × Form) → List (String × Json) → Prop
  | nil {optional} : DescribesFields optional [] []
  | absent {optional name form fields members} (h : name ∈ optional)
      (tail : DescribesFields optional fields members) :
      DescribesFields optional ((name, form) :: fields) ((name, null) :: members)
  | present {optional name form fields v members} (head : Describes form v)
      (tail : DescribesFields optional fields members) :
      DescribesFields optional ((name, form) :: fields) ((name, v) :: members)

end

/-- A field before and after a tolerated change. -/
inductive ToleratesField (optional : List String) :
    String × Form → Option Json → Option Json → Prop
  | same {field x} : ToleratesField optional field x x
  | absent {name form} (h : name ∈ optional) :
      ToleratesField optional (name, form) (some null) none
  | changed {name form v w} (inner : Tolerates form v w) :
      ToleratesField optional (name, form) (some v) (some w)

/-- The fields of a record before and after a tolerated change. -/
inductive ToleratesFields (optional : List String) :
    List (String × Form) → List (Option Json) → List (Option Json) → Prop
  | nil : ToleratesFields optional [] [] []
  | cons {field fields x y xs ys} (head : ToleratesField optional field x y)
      (tail : ToleratesFields optional fields xs ys) :
      ToleratesFields optional (field :: fields) (x :: xs) (y :: ys)

variable {fields : List (String × Form)} {optional : List String} {form : Form} {j k : Json}

lemma Tolerates.ne_null (h : Tolerates form j k) : j ≠ null ∧ k ≠ null := by
  cases h <;> exact ⟨Json.noConfusion, Json.noConfusion⟩

lemma ToleratesFields.same {xs : List (Option Json)} (h : xs.length = fields.length) :
    ToleratesFields optional fields xs xs := by
  induction xs generalizing fields with
  | nil =>
    obtain rfl := List.length_eq_zero_iff.mp h.symm
    exact .nil
  | cons x xs ih =>
    cases fields with
    | nil => cases h
    | cons field fields => exact .cons .same (ih (Nat.succ.inj h))

/-- The fields of an object are looked up one by one. -/
lemma ToleratesFields.of_forall {f g : String → Option Json}
    (h : ∀ field ∈ fields, ToleratesField optional field (f field.1) (g field.1)) :
    ToleratesFields optional fields ((fields.map Prod.fst).map f) ((fields.map Prod.fst).map g) := by
  induction fields with
  | nil => exact .nil
  | cons field fields ih =>
    exact .cons (h field (List.mem_cons_self ..))
      (ih fun other hother => h other (List.mem_cons_of_mem _ hother))

/-- The fields of an array are its items, and only one of them changes. -/
lemma ToleratesFields.of_item {before after : List Json} {name : String} {v w : Json}
    (hlength : (before ++ v :: after).length = fields.length)
    (h : fields[before.length]? = some (name, form)) (inner : Tolerates form v w) :
    ToleratesFields optional fields ((before ++ v :: after).map some)
      ((before ++ w :: after).map some) := by
  induction before generalizing fields with
  | nil =>
    cases fields with
    | nil => cases h
    | cons field fields =>
      cases h
      exact .cons (.changed inner) (.same (by simpa using hlength))
  | cons u before ih =>
    cases fields with
    | nil => cases h
    | cons field fields => exact .cons .same (ih (by simpa using hlength) (by simpa using h))

end Form

/-- Looking up a member goes on behind other members until it is found. -/
lemma member?_append (xs ys : List (String × Json)) (n : String) :
    member? (xs ++ ys) n = (member? xs n).or (member? ys n) := by
  rw [member?, List.find?_append, member?, member?]
  cases xs.find? fun entry => entry.1 = n <;> rfl

lemma member?_cons_self (name : String) (v : Json) (xs : List (String × Json)) :
    member? ((name, v) :: xs) name = some v := by
  simp [member?]

lemma member?_cons_of_ne {name n : String} (h : name ≠ n) (v : Json) (xs : List (String × Json)) :
    member? ((name, v) :: xs) n = member? xs n := by
  simp [member?, h]

lemma member?_filter_self (xs : List (String × Json)) (name : String) :
    member? (xs.filter fun entry => entry.1 ≠ name) name = none := by
  simp [member?]

lemma member?_filter_of_ne {name n : String} (h : name ≠ n) (xs : List (String × Json)) :
    member? (xs.filter fun entry => entry.1 ≠ name) n = member? xs n := by
  induction xs with
  | nil => rfl
  | cons entry xs ih =>
    obtain ⟨key, v⟩ := entry
    by_cases hkey : key = name
    · rw [List.filter_cons_of_neg (by simp [hkey]), ih, hkey, member?_cons_of_ne h]
    · rw [List.filter_cons_of_pos (by simp [hkey])]
      by_cases hn : key = n
      · rw [hn, member?_cons_self, member?_cons_self]
      · rw [member?_cons_of_ne hn, member?_cons_of_ne hn, ih]

namespace Form
variable {fields : List (String × Form)} {optional : List String} {form : Form} {j k : Json}
  {members : List (String × Json)}

lemma ToleratesField.of_unknown {before after : List (String × Json)} {name : String} (v : Json)
    (h : name ∉ fields.map Prod.fst) {field : String × Form} (hf : field ∈ fields) :
    ToleratesField optional field (member? (before ++ after) field.1)
      (member? (before ++ (name, v) :: after) field.1) := by
  have hne : name ≠ field.1 := fun hname => h (hname ▸ List.mem_map_of_mem hf)
  rw [member?_append, member?_append, member?_cons_of_ne hne]
  exact .same

lemma ToleratesField.of_absent {name : String} (h : name ∈ optional)
    (hnull : member? members name = some null) (field : String × Form) :
    ToleratesField optional field (member? members field.1)
      (member? (members.filter fun entry => entry.1 ≠ name) field.1) := by
  obtain ⟨n, form⟩ := field
  by_cases hne : name = n
  · subst hne
    rw [hnull, member?_filter_self]
    exact .absent h
  · rw [member?_filter_of_ne hne]
    exact .same

/-- Only the field of that name changes, and it has one form. -/
lemma ToleratesField.of_field {before after : List (String × Json)} {name : String} {v w : Json}
    (hnodup : (fields.map Prod.fst).Nodup) (h : (name, form) ∈ fields)
    (inner : Tolerates form v w) {field : String × Form} (hf : field ∈ fields) :
    ToleratesField optional field (member? (before ++ (name, v) :: after) field.1)
      (member? (before ++ (name, w) :: after) field.1) := by
  rw [member?_append, member?_append]
  by_cases hne : name = field.1
  · obtain rfl : (name, form) = field := List.inj_on_of_nodup_map hnodup h hf hne
    rw [member?_cons_self, member?_cons_self]
    cases member? before name with
    | none => exact .changed inner
    | some u => exact .same
  · rw [member?_cons_of_ne hne, member?_cons_of_ne hne]
    exact .same

/-- The fields of an object before and after a tolerated change. Nothing else has members. -/
theorem Tolerates.members? (h : Tolerates (record fields optional) j k)
    (hnodup : (fields.map Prod.fst).Nodup) :
    Option.Rel (ToleratesFields optional fields) (members? (fields.map Prod.fst) j)
      (members? (fields.map Prod.fst) k) := by
  cases h with
  | unknown hname => exact .some (.of_forall fun _ hf => .of_unknown _ hname hf)
  | absent hname hnull => exact .some (.of_forall fun field _ => .of_absent hname hnull field)
  | field hfield inner => exact .some (.of_forall fun _ hf => .of_field hnodup hfield inner hf)
  | item => exact .none

/-- A record may also be an array with one item for each field. -/
theorem Tolerates.record? (h : Tolerates (record fields optional) j k)
    (hnodup : (fields.map Prod.fst).Nodup) :
    Option.Rel (ToleratesFields optional fields) (record? (fields.map Prod.fst) j)
      (record? (fields.map Prod.fst) k) := by
  cases h with
  | unknown hname => exact (Tolerates.unknown hname).members? hnodup
  | absent hname hnull => exact (Tolerates.absent hname hnull).members? hnodup
  | field hfield inner => exact (Tolerates.field hfield inner).members? hnodup
  | @item _ _ before after _ _ v w hitem inner =>
    have hsame : (before ++ w :: after).length = (before ++ v :: after).length := by simp
    rw [Json.record?, Json.record?, List.length_map, hsame]
    by_cases hlength : (before ++ v :: after).length = fields.length
    · rw [if_pos hlength, if_pos hlength]
      exact .some (.of_item hlength hitem inner)
    · rw [if_neg hlength, if_neg hlength]
      exact .none

variable {α : Type}

/-- The reader gives the same answer before and after any tolerated change. -/
def UnnoticedBy (form : Form) (read : Json → Option α) : Prop :=
  ∀ ⦃j k⦄, form.Tolerates j k → read k = read j

lemma unnoticedBy_plain (read : Json → Option α) : plain.UnnoticedBy read :=
  fun _ _ h => nomatch h

section Fields
variable {read : Json → Option α} {name : String} {x y : Option Json}

/-- A field with nothing inside that may change, and that may not be left out, is the same. -/
lemma ToleratesField.eq_of_plain (h : ToleratesField optional (name, plain) x y)
    (hname : name ∉ optional) : y = x := by
  cases h with
  | same => rfl
  | absent hoptional => exact absurd hoptional hname
  | changed inner => cases inner

lemma ToleratesField.required? (h : ToleratesField optional (name, form) x y)
    (hread : form.UnnoticedBy read) (hname : name ∉ optional) :
    required? read y = required? read x := by
  cases h with
  | same => rfl
  | absent hoptional => exact absurd hoptional hname
  | changed inner => exact hread inner

lemma ToleratesField.optional? (h : ToleratesField optional (name, form) x y)
    (hread : form.UnnoticedBy read) : optional? read y = optional? read x := by
  cases h with
  | same => rfl
  | absent => rfl
  | changed inner =>
    rw [Json.optional?, Json.optional?, nullable?_of_ne_null inner.ne_null.1,
      nullable?_of_ne_null inner.ne_null.2, hread inner]

end Fields

/-- A reader of a record only looks at the fields that are fetched for it. -/
theorem unnoticedBy_bind {fetch : Json → Option (List (Option Json))}
    {read : List (Option Json) → Option α}
    (hfetch : ∀ j k, form.Tolerates j k →
      Option.Rel (ToleratesFields optional fields) (fetch j) (fetch k))
    (hread : ∀ xs ys, ToleratesFields optional fields xs ys → read ys = read xs) :
    form.UnnoticedBy fun j => (fetch j).bind read := by
  intro j k h
  have hfields := hfetch j k h
  simp only
  generalize fetch j = xs? at hfields ⊢
  generalize fetch k = ys? at hfields ⊢
  cases hfields with
  | none => rfl
  | some hsame => exact hread _ _ hsame

theorem unnoticedBy_variants {payloads : List (String × Form)} {read : Json → Option α}
    (h : ∀ payload ∈ payloads, payload.2.UnnoticedBy fun v => read (obj [(payload.1, v)])) :
    (variants payloads).UnnoticedBy read := by
  intro j k hjk
  cases hjk with
  | payload hmem inner => exact h _ hmem inner

end Form
end VerifierBench.Json
