import VerifierBench.Proofs.Check.Answer
import VerifierBench.Proofs.Tree.Refusal

/-! Refused requests. The domain of a sweep is looked at before its fault, a fault is refused as the
derived tree refuses it, and a fixture has to be in the catalogue. Nothing else is refused. -/
namespace VerifierBench

/-- The failures inside a fixture: of its text, of its loops and of their summaries. -/
def Error.InFixture : Error → Prop
  | .invalidFixture _ _ | .summaryMismatch _ _ | .nonTerminatingLoop _ | .overflowingSummary _ => True
  | _ => False

lemma Fault.Refused.not_inFixture {f : Fault} {cause : Error} (h : f.Refused cause) :
    ¬ cause.InFixture := by
  cases h <;> exact id

namespace CheckRequest
variable {r : CheckRequest} {limit : UInt64} {fault : Option Fault} {cause : Error}

lemma treeWith_eq_error_iff :
    treeWith fault = .error cause ↔ ∃ f, fault = some f ∧ f.Refused cause := by
  cases fault with
  | none => simp [treeWith]
  | some f => simp [treeWith, DecisionTree.inject_derived_eq_error_iff]

/-- Why a request is refused. -/
inductive Refused : CheckRequest → Error → Prop
  | maxMin {inputs : Sextuple} {f : Fault} {cause : Error} (h : f.Refused cause) :
      Refused (.maxMin inputs (some f)) cause
  | domain {low high : Int32} {fault : Option Fault} {failFast : Bool} (h : BadDomain low high) :
      Refused (.sweep low high fault failFast) (.invalidDomain low high)
  | sweep {low high : Int32} {f : Fault} {failFast : Bool} {cause : Error}
      (hdomain : ¬ BadDomain low high) (h : f.Refused cause) :
      Refused (.sweep low high (some f) failFast) cause
  | random {cases seed : UInt64} {f : Fault} {failFast : Bool} {cause : Error}
      (h : f.Refused cause) : Refused (.random cases seed (some f) failFast) cause
  | fixture {name : String} {inputs : Option (List Int32)}
      (h : name ∉ Fixture.all.map Fixture.name) :
      Refused (.fixture name inputs) (.unknownFixture name)

lemma Refused.not_inFixture (h : r.Refused cause) : ¬ cause.InFixture := by
  cases h with
  | maxMin h => exact h.not_inFixture
  | domain h => exact id
  | sweep hdomain h => exact h.not_inFixture
  | random h => exact h.not_inFixture
  | fixture h => exact id

section Inversion
variable {inputs : Sextuple} {low high : Int32} {failFast : Bool} {cases seed : UInt64}
  {name : String} {given : Option (List Int32)}

lemma refused_maxMin_iff :
    (maxMin inputs fault).Refused cause ↔ ∃ f, fault = some f ∧ f.Refused cause := by
  constructor
  · rintro ⟨h⟩
    exact ⟨_, rfl, h⟩
  · rintro ⟨f, rfl, h⟩
    exact .maxMin h

lemma refused_sweep_iff : (sweep low high fault failFast).Refused cause ↔
    BadDomain low high ∧ cause = .invalidDomain low high ∨
      ¬ BadDomain low high ∧ ∃ f, fault = some f ∧ f.Refused cause := by
  constructor
  · intro h
    cases h with
    | domain hbad => exact .inl ⟨hbad, rfl⟩
    | sweep hgood h => exact .inr ⟨hgood, _, rfl, h⟩
  · rintro (⟨hbad, rfl⟩ | ⟨hgood, f, rfl, h⟩)
    · exact .domain hbad
    · exact .sweep hgood h

lemma refused_random_iff :
    (random cases seed fault failFast).Refused cause ↔ ∃ f, fault = some f ∧ f.Refused cause := by
  constructor
  · intro h
    cases h with
    | random h => exact ⟨_, rfl, h⟩
  · rintro ⟨f, rfl, h⟩
    exact .random h

lemma refused_fixture_iff : (fixture name given).Refused cause ↔
    name ∉ Fixture.all.map Fixture.name ∧ cause = .unknownFixture name := by
  constructor
  · intro h
    cases h with
    | fixture hname => exact ⟨hname, rfl⟩
  · rintro ⟨hname, rfl⟩
    exact .fixture hname

end Inversion

/-- A known fixture is never refused. -/
lemma respond_fixture_eq_error_iff {name : String} {inputs : Option (List Int32)} :
    (fixture name inputs).respond limit = .error cause ↔ Fixture.find name = .error cause := by
  rw [respond_fixture]
  cases hfind : Fixture.find name with
  | error e => simp [Except.bind]
  | ok x =>
    obtain ⟨hx, -⟩ := Fixture.find_eq_ok hfind
    obtain ⟨result, hcheck, -⟩ := (Fixture.runs_of_mem_all x hx).exists_checkOn inputs limit
    simp [Except.bind, hcheck, Except.map]

/-- One case for each kind of request: its answer is taken apart until the tree or the catalogue
decides. -/
theorem respond_eq_error_iff : r.respond limit = .error cause ↔ r.Refused cause := by
  cases r with
  | maxMin inputs fault =>
    rw [respond_maxMin, map_eq_error_iff, treeWith_eq_error_iff, refused_maxMin_iff]
  | sweep low high fault failFast =>
    rw [refused_sweep_iff]
    by_cases hdomain : BadDomain low high
    · simp [respond_sweep_of_bad hdomain, hdomain, eq_comm]
    · rw [respond_sweep_of_good hdomain, map_eq_error_iff, treeWith_eq_error_iff]
      simp [hdomain]
  | random cases seed fault failFast =>
    obtain ⟨words, hwords⟩ := respond_random seed
    rw [hwords, map_eq_error_iff, treeWith_eq_error_iff, refused_random_iff]
  | fixture name inputs =>
    rw [respond_fixture_eq_error_iff, Fixture.find_eq_error_iff, refused_fixture_iff]
  | allFixtures =>
    obtain ⟨checked, hresponse, -⟩ := respond_allFixtures limit
    rw [hresponse]
    constructor <;> nofun

/-- A request fails for the reasons listed and for no other, whatever the limit; each other request
has a response. No failure inside a fixture gets out, on whichever words the fixture runs. -/
theorem fails_iff_refused (r : CheckRequest) (limit : UInt64) :
    (∀ cause, r.respond limit = .error cause ↔ r.Refused cause) ∧
    ((∃ response, r.respond limit = .ok response) ↔ ∀ cause, ¬ r.Refused cause) ∧
    (∀ cause, r.respond limit = .error cause → ¬ cause.InFixture) ∧
    ∀ x ∈ Fixture.all, ∀ inputs, ∃ result, x.checkOn inputs limit = .ok result := by
  have herror : ∀ cause, r.respond limit = .error cause ↔ r.Refused cause :=
    fun _ => respond_eq_error_iff
  refine ⟨herror, ?_, fun cause h => ((herror cause).mp h).not_inFixture, ?_⟩
  · simp only [← herror]
    cases r.respond limit with
    | error cause => simp
    | ok response => simp
  · intro x hx inputs
    obtain ⟨result, hcheck, -⟩ := (Fixture.runs_of_mem_all x hx).exists_checkOn inputs limit
    exact ⟨result, hcheck⟩

end CheckRequest
end VerifierBench
