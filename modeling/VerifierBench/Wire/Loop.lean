import VerifierBench.Fixture.Basic
import VerifierBench.Json.Decode
import VerifierBench.Loop.Progression

/-! The JSON forms of loops, accumulations, predicates and expectations. -/
namespace VerifierBench
open Json

namespace Step

def toJson (s : Step) : Json := obj [("count", ofUInt64 s.count), ("delta", ofInt32 s.delta)]

def ofJson? (j : Json) : Option Step := do
  match ← record? ["count", "delta"] j with
  | [count, delta] => return ⟨← required? uint64? count, ← required? int32? delta⟩
  | _ => none

end Step

namespace Summary

def toJson (s : Summary) : Json :=
  obj [("value", ofInt32 s.value), ("cross_checked", .bool s.crossChecked)]

def ofJson? (j : Json) : Option Summary := do
  match ← record? ["value", "cross_checked"] j with
  | [value, crossChecked] => return ⟨← required? int32? value, ← required? bool? crossChecked⟩
  | _ => none

end Summary

namespace Accumulation

def toJson (a : Accumulation) : Json :=
  obj [("initial", ofInt32 a.initial), ("steps", Json.ofList Step.toJson a.steps)]

def ofJson? (j : Json) : Option Accumulation := do
  match ← record? ["initial", "steps"] j with
  | [initial, steps] => return ⟨← required? int32? initial, ← required? (list? Step.ofJson?) steps⟩
  | _ => none

end Accumulation

namespace Guard

def toJson : Guard → Json
  | below b => obj [("Below", ofInt32 b)]
  | above b => obj [("Above", ofInt32 b)]

def ofJson? (j : Json) : Option Guard := do
  match ← variant? j with
  | ("Below", some payload) => return below (← int32? payload)
  | ("Above", some payload) => return above (← int32? payload)
  | _ => none

end Guard

namespace GuardedLoop

def toJson (l : GuardedLoop) : Json :=
  obj [("guard", l.guard.toJson), ("delta", ofInt32 l.delta),
    ("break_at", ofOption ofInt32 l.breakAt)]

def ofJson? (j : Json) : Option GuardedLoop := do
  match ← record? ["guard", "delta", "break_at"] j with
  | [guard, delta, breakAt] =>
    return ⟨← required? Guard.ofJson? guard, ← required? int32? delta, ← optional? int32? breakAt⟩
  | _ => none

end GuardedLoop

namespace Progression

def toJson (p : Progression) : Json :=
  obj [("start", ofInt32 p.start), ("delta", ofInt32 p.delta), ("count", ofUInt64 p.count)]

def ofJson? (j : Json) : Option Progression := do
  match ← record? ["start", "delta", "count"] j with
  | [start, delta, count] =>
    return ⟨← required? int32? start, ← required? int32? delta, ← required? uint64? count⟩
  | _ => none

end Progression

namespace ScalarPredicate

def toJson : ScalarPredicate → Json
  | even => str "Even"
  | odd => str "Odd"
  | equals n => obj [("Equals", ofInt32 n)]
  | notEquals n => obj [("NotEquals", ofInt32 n)]

def ofJson? (j : Json) : Option ScalarPredicate := do
  match ← variant? j with
  | ("Even", payload) => unit? even payload
  | ("Odd", payload) => unit? odd payload
  | ("Equals", some payload) => return equals (← int32? payload)
  | ("NotEquals", some payload) => return notEquals (← int32? payload)
  | _ => none

end ScalarPredicate

namespace Expectation

def toJson (e : Expectation) : Json := str e.text

def ofJson? (j : Json) : Option Expectation := do
  let (name, payload) ← variant? j
  let e ← [safe, errorReachable, invalid].find? fun e => e.text = name
  unit? e payload

end Expectation
end VerifierBench
