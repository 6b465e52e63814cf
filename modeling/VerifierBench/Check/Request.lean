import VerifierBench.Wire.Tree

/-! What can be asked for: one run, a campaign over a grid or over random words, one fixture, or all
fixtures. -/
namespace VerifierBench
open Json

inductive CheckRequest
  | maxMin (inputs : Sextuple) (fault : Option Fault)
  | sweep (min max : Int32) (fault : Option Fault) (failFast : Bool)
  | random (cases seed : UInt64) (fault : Option Fault) (failFast : Bool)
  | fixture (name : String) (inputs : Option (List Int32))
  | allFixtures
  deriving DecidableEq, Repr

namespace CheckRequest

def toJson : CheckRequest → Json
  | maxMin inputs fault =>
    obj [("MaxMin", obj [("inputs", inputs.toJson), ("fault", ofOption Fault.toJson fault)])]
  | sweep min max fault failFast =>
    obj [("Sweep", obj [("min", ofInt32 min), ("max", ofInt32 max),
      ("fault", ofOption Fault.toJson fault), ("fail_fast", .bool failFast)])]
  | random cases seed fault failFast =>
    obj [("Random", obj [("cases", ofUInt64 cases), ("seed", ofUInt64 seed),
      ("fault", ofOption Fault.toJson fault), ("fail_fast", .bool failFast)])]
  | fixture name inputs =>
    obj [("Fixture", obj [("name", str name), ("inputs", ofOption (Json.ofList ofInt32) inputs)])]
  | allFixtures => str "AllFixtures"

def ofJson? (j : Json) : Option CheckRequest := do
  match ← variant? j with
  | ("MaxMin", some payload) =>
    match ← members? ["inputs", "fault"] payload with
    | [inputs, fault] =>
      return maxMin (← required? Sextuple.ofJson? inputs) (← optional? Fault.ofJson? fault)
    | _ => none
  | ("Sweep", some payload) =>
    match ← members? ["min", "max", "fault", "fail_fast"] payload with
    | [min, max, fault, failFast] =>
      return sweep (← required? int32? min) (← required? int32? max)
        (← optional? Fault.ofJson? fault) (← required? bool? failFast)
    | _ => none
  | ("Random", some payload) =>
    match ← members? ["cases", "seed", "fault", "fail_fast"] payload with
    | [cases, seed, fault, failFast] =>
      return random (← required? uint64? cases) (← required? uint64? seed)
        (← optional? Fault.ofJson? fault) (← required? bool? failFast)
    | _ => none
  | ("Fixture", some payload) =>
    match ← members? ["name", "inputs"] payload with
    | [name, inputs] =>
      return fixture (← required? string? name) (← optional? (list? int32?) inputs)
    | _ => none
  | ("AllFixtures", payload) => unit? allFixtures payload
  | _ => none

end CheckRequest
end VerifierBench
