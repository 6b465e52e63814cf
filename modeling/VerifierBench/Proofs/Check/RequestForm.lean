import Mathlib.Logic.Function.Defs
import Mathlib.Logic.Relation
import VerifierBench.Check.Request
import VerifierBench.Proofs.Wire.Fault

/-! The JSON form of requests, as a value and as a text: what is written is read back, different
requests are written differently, and a request does not change when unknown members are added to its
records or null options are left out, however deep. -/
namespace VerifierBench.CheckRequest
open Json

def form : Form :=
  .variants [
    ("MaxMin", .record [("inputs", .plain), ("fault", Fault.form)] ["fault"]),
    ("Sweep", .record [("min", .plain), ("max", .plain), ("fault", Fault.form),
      ("fail_fast", .plain)] ["fault"]),
    ("Random", .record [("cases", .plain), ("seed", .plain), ("fault", Fault.form),
      ("fail_fast", .plain)] ["fault"]),
    ("Fixture", .record [("name", .plain), ("inputs", .plain)] ["inputs"])]

/-- Any values that read as the two words will do. With the written words in their place, checking the
lookups would unfold their ranges. -/
lemma ofJson?_random {a b : Json} {cases seed : UInt64} (fault : Option Fault) (failFast : Bool)
    (hcases : uint64? a = some cases) (hseed : uint64? b = some seed) :
    ofJson? (obj [("Random", obj [("cases", a), ("seed", b),
      ("fault", Json.ofOption Fault.toJson fault), ("fail_fast", .bool failFast)])]) =
    some (random cases seed fault failFast) := by
  have hfields : members? ["cases", "seed", "fault", "fail_fast"]
      (obj [("cases", a), ("seed", b), ("fault", Json.ofOption Fault.toJson fault),
        ("fail_fast", .bool failFast)]) =
      some [some a, some b, some (Json.ofOption Fault.toJson fault), some (.bool failFast)] :=
    members?_of_nodup (by simp)
  simp only [ofJson?, variant?, hfields, Option.bind_eq_bind, Option.bind_some, required?,
    Option.pure_def, hcases, hseed, Fault.faithful.ofOption, faithful_bool.read_write]

theorem faithful : Faithful toJson ofJson? where
  read_write r := by
    cases r with
    | maxMin inputs fault =>
      have hfields : members? ["inputs", "fault"]
          (obj [("inputs", inputs.toJson), ("fault", Json.ofOption Fault.toJson fault)]) =
          some [some inputs.toJson, some (Json.ofOption Fault.toJson fault)] :=
        members?_of_nodup (by simp)
      simp only [toJson, ofJson?, variant?, hfields, Option.bind_eq_bind, Option.bind_some, required?,
        Option.pure_def, Sextuple.faithful.read_write, Fault.faithful.ofOption]
    | sweep min max fault failFast =>
      have hfields : members? ["min", "max", "fault", "fail_fast"]
          (obj [("min", ofInt32 min), ("max", ofInt32 max),
            ("fault", Json.ofOption Fault.toJson fault), ("fail_fast", .bool failFast)]) =
          some [some (ofInt32 min), some (ofInt32 max), some (Json.ofOption Fault.toJson fault),
            some (.bool failFast)] :=
        members?_of_nodup (by simp)
      simp only [toJson, ofJson?, variant?, hfields, Option.bind_eq_bind, Option.bind_some, required?,
        Option.pure_def, faithful_int32.read_write, Fault.faithful.ofOption, faithful_bool.read_write]
    | random cases seed fault failFast =>
      exact ofJson?_random fault failFast (faithful_uint64.read_write cases)
        (faithful_uint64.read_write seed)
    | fixture name inputs =>
      have hfields : members? ["name", "inputs"]
          (obj [("name", str name), ("inputs", Json.ofOption (Json.ofList ofInt32) inputs)]) =
          some [some (str name), some (Json.ofOption (Json.ofList ofInt32) inputs)] :=
        members?_of_nodup (by simp)
      simp only [toJson, ofJson?, variant?, hfields, Option.bind_eq_bind, Option.bind_some, required?,
        Option.pure_def, faithful_string.read_write, (faithful_int32.ofList).ofOption]
    | allFixtures => rfl
  write_ne_null r := by cases r <;> exact Json.noConfusion

/-- A field that holds a fault or null. -/
lemma describesFields_fault {fields : List (String × Form)} {members : List (String × Json)}
    (fault : Option Fault) (tail : Form.DescribesFields ["fault"] fields members) :
    Form.DescribesFields ["fault"] (("fault", Fault.form) :: fields)
      (("fault", Json.ofOption Fault.toJson fault) :: members) := by
  cases fault with
  | none => exact .absent (.head _) tail
  | some f => exact .present f.described tail

theorem described (r : CheckRequest) : form.Describes r.toJson := by
  cases r with
  | maxMin inputs fault =>
    exact .payload (.head _) (.record (.present .plain (describesFields_fault fault .nil)))
  | sweep min max fault failFast =>
    exact .payload (.tail _ (.head _)) (.record (.present .plain (.present .plain
      (describesFields_fault fault (.present .plain .nil)))))
  | random cases seed fault failFast =>
    exact .payload (.tail _ (.tail _ (.head _))) (.record (.present .plain (.present .plain
      (describesFields_fault fault (.present .plain .nil)))))
  | fixture name inputs =>
    exact .payload (.tail _ (.tail _ (.tail _ (.head _))))
      (.record (.present .plain (.present .plain .nil)))
  | allFixtures => exact .unit (by decide)

theorem unnoticed : form.UnnoticedBy ofJson? := by
  refine Form.unnoticedBy_variants fun payload hpayload => ?_
  rcases hpayload with _ | ⟨_, _ | ⟨_, _ | ⟨_, _ | ⟨_, ⟨⟩⟩⟩⟩⟩
  · refine Form.unnoticedBy_bind (fun _ _ h => h.members? (by decide)) ?_
    rintro _ _ (_ | ⟨hinputs, _ | ⟨hfault, ⟨⟩⟩⟩)
    simp only [hinputs.eq_of_plain (by simp), hfault.optional? Fault.unnoticed]
  · refine Form.unnoticedBy_bind (fun _ _ h => h.members? (by decide)) ?_
    rintro _ _ (_ | ⟨hmin, _ | ⟨hmax, _ | ⟨hfault, _ | ⟨hfailFast, ⟨⟩⟩⟩⟩⟩)
    simp only [hmin.eq_of_plain (by simp), hmax.eq_of_plain (by simp),
      hfault.optional? Fault.unnoticed, hfailFast.eq_of_plain (by simp)]
  · refine Form.unnoticedBy_bind (fun _ _ h => h.members? (by decide)) ?_
    rintro _ _ (_ | ⟨hcases, _ | ⟨hseed, _ | ⟨hfault, _ | ⟨hfailFast, ⟨⟩⟩⟩⟩⟩)
    simp only [hcases.eq_of_plain (by simp), hseed.eq_of_plain (by simp),
      hfault.optional? Fault.unnoticed, hfailFast.eq_of_plain (by simp)]
  · refine Form.unnoticedBy_bind (fun _ _ h => h.members? (by decide)) ?_
    rintro _ _ (_ | ⟨hname, _ | ⟨hinputs, ⟨⟩⟩⟩)
    simp only [hname.eq_of_plain (by simp), hinputs.optional? (Form.unnoticedBy_plain _)]

theorem readable {depth : ℕ} (r : CheckRequest) : Readable (depth + 5) r.toJson := by
  have hfault : ∀ fault, Readable (depth + 3) (Json.ofOption Fault.toJson fault) :=
    readable_ofOption Fault.readable
  have hpayload : ∀ {name payload}, Readable (depth + 4) payload →
      Readable (depth + 5) (obj [(name, payload)]) :=
    fun h => .obj (by simp) (by simpa using h)
  cases r with
  | maxMin inputs fault =>
    exact hpayload (.obj (by simp) (by simpa using ⟨inputs.readable, hfault fault⟩))
  | sweep min max fault failFast =>
    exact hpayload (.obj (by simp)
      (by simpa using ⟨readable_int32 min, readable_int32 max, hfault fault, .bool failFast⟩))
  | random cases seed fault failFast =>
    exact hpayload (.obj (by simp)
      (by simpa using ⟨readable_uint64 cases, readable_uint64 seed, hfault fault, .bool failFast⟩))
  | fixture name inputs =>
    exact hpayload (.obj (by simp)
      (by simpa using ⟨.str name, readable_ofOption (readable_ofList readable_int32) inputs⟩))
  | allFixtures => exact .str _

theorem read_compact_toJson (r : CheckRequest) : read r.toJson.compact = some r.toJson :=
  read_compact r.readable

/-- Reading undoes writing, on JSON values as on their texts, so different requests are written
differently. A JSON value that is read as a request is still read as that request after any number of
changes that the form of requests tolerates, and writing the request again loses nothing. -/
theorem json_round_trip :
    (∀ r : CheckRequest, form.Describes r.toJson ∧ ofJson? r.toJson = some r ∧
      read r.toJson.compact = some r.toJson) ∧
    Function.Injective toJson ∧ (Function.Injective fun r : CheckRequest => r.toJson.compact) ∧
    ∀ j r, ofJson? j = some r → ofJson? r.toJson = some r ∧
      ∀ k, Relation.ReflTransGen form.Tolerates j k → ofJson? k = some r := by
  have hvalues : Function.Injective toJson := fun _ _ => faithful.injective
  refine ⟨fun r => ⟨r.described, faithful.read_write r, r.read_compact_toJson⟩, hvalues, ?_, ?_⟩
  · intro r s h
    have hread := congrArg read h
    simp only [read_compact_toJson, Option.some.injEq] at hread
    exact hvalues hread
  · intro j r hread
    refine ⟨faithful.read_write r, fun k h => ?_⟩
    induction h with
    | refl => exact hread
    | tail _ hstep ih => exact (unnoticed hstep).trans ih

/-- A member of an unknown name inside the replacement of a fault, and a null fault left out. -/
theorem json_round_trip_annotated :
    ofJson? (obj [("Sweep", obj [("min", int (-1)), ("max", int 1),
      ("fault", obj [("site", obj [("MaxGuard", obj [("candidate", str "A")])]), ("conjunct", int 0),
        ("replacement", obj [("lhs", str "A"), ("note", str "swapped"), ("rhs", str "B")])]),
      ("fail_fast", .bool true)])]) =
      some (sweep (-1) 1 (some ⟨.maxGuard .a, 0, ⟨.a, .b⟩⟩) true) ∧
    ofJson? (obj [("Random", obj [("cases", int 5), ("seed", int 7), ("fail_fast", .bool false)])]) =
      some (random 5 7 none false) := by
  constructor
  · refine (json_round_trip.2.2.2 _ _ (json_round_trip.1 _).2.1).2 _
      (.single (.payload (.tail _ (.head _)) ?_))
    refine @Form.Tolerates.field _ _ [("min", _), ("max", _)] _ _ _ _ _
      (.tail _ (.tail _ (.head _))) ?_
    refine @Form.Tolerates.field _ _ [("site", _), ("conjunct", _)] _ _ _ _ _
      (.tail _ (.tail _ (.head _))) ?_
    exact @Form.Tolerates.unknown _ _ [("lhs", _)] _ _ _ (by decide)
  · refine (json_round_trip.2.2.2 _ _ (json_round_trip.1 _).2.1).2 _
      (.single (.payload (.tail _ (.tail _ (.head _))) ?_))
    exact @Form.Tolerates.absent _ _ _ "fault" (.head _) rfl

end VerifierBench.CheckRequest
