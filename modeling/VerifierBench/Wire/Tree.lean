import VerifierBench.Json.Decode
import VerifierBench.Report.CheckResult
import VerifierBench.Report.Oracle

/-! The JSON forms of positions, sextuples, leaves, faults and verdicts. -/
namespace VerifierBench
open Json

namespace Position

/-- Positions are written in upper case. -/
def tag (p : Position) : String := String.singleton p.letter.toUpper

def toJson (p : Position) : Json := str p.tag

def ofJson? (j : Json) : Option Position := do
  let (name, payload) ← variant? j
  let p ← all.find? fun p => p.tag = name
  unit? p payload

end Position

namespace Extremum

def tag : Extremum → String
  | max => "Max" | min => "Min"

def toJson (e : Extremum) : Json := str e.tag

def ofJson? (j : Json) : Option Extremum := do
  let (name, payload) ← variant? j
  let e ← [max, min].find? fun e => e.tag = name
  unit? e payload

end Extremum

namespace Sextuple

def toJson (v : Sextuple) : Json := Json.ofList ofInt32 v.toList

def ofJson? (j : Json) : Option Sextuple := do
  Slots.ofList? (← list? int32? j)

end Sextuple

namespace Extrema

def toJson (r : Extrema) : Json := obj [("max", ofInt32 r.max), ("min", ofInt32 r.min)]

def ofJson? (j : Json) : Option Extrema := do
  match ← record? ["max", "min"] j with
  | [max, min] => return ⟨← required? int32? max, ← required? int32? min⟩
  | _ => none

end Extrema

namespace Leaf

def toJson (l : Leaf) : Json := obj [("max", l.max.toJson), ("min", l.min.toJson)]

def ofJson? (j : Json) : Option Leaf := do
  match ← record? ["max", "min"] j with
  | [max, min] => return ⟨← required? Position.ofJson? max, ← required? Position.ofJson? min⟩
  | _ => none

end Leaf

namespace Selection

def toJson (s : Selection) : Json := obj [("result", s.result.toJson), ("leaf", s.leaf.toJson)]

def ofJson? (j : Json) : Option Selection := do
  match ← record? ["result", "leaf"] j with
  | [result, leaf] => return ⟨← required? Extrema.ofJson? result, ← required? Leaf.ofJson? leaf⟩
  | _ => none

end Selection

namespace Comparison

def toJson (c : Comparison) : Json := obj [("lhs", c.lhs.toJson), ("rhs", c.rhs.toJson)]

def ofJson? (j : Json) : Option Comparison := do
  match ← record? ["lhs", "rhs"] j with
  | [lhs, rhs] => return ⟨← required? Position.ofJson? lhs, ← required? Position.ofJson? rhs⟩
  | _ => none

end Comparison

namespace FaultSite

def toJson : FaultSite → Json
  | maxGuard p => obj [("MaxGuard", obj [("candidate", p.toJson)])]
  | minGuard m p => obj [("MinGuard", obj [("max", m.toJson), ("candidate", p.toJson)])]

def ofJson? (j : Json) : Option FaultSite := do
  match ← variant? j with
  | ("MaxGuard", some payload) =>
    match ← members? ["candidate"] payload with
    | [candidate] => return maxGuard (← required? Position.ofJson? candidate)
    | _ => none
  | ("MinGuard", some payload) =>
    match ← members? ["max", "candidate"] payload with
    | [max, candidate] =>
      return minGuard (← required? Position.ofJson? max) (← required? Position.ofJson? candidate)
    | _ => none
  | _ => none

end FaultSite

namespace Fault

def toJson (f : Fault) : Json :=
  obj [("site", f.site.toJson), ("conjunct", ofUInt64 f.conjunct),
    ("replacement", f.replacement.toJson)]

def ofJson? (j : Json) : Option Fault := do
  match ← record? ["site", "conjunct", "replacement"] j with
  | [site, conjunct, replacement] =>
    return ⟨← required? FaultSite.ofJson? site, ← required? uint64? conjunct,
      ← required? Comparison.ofJson? replacement⟩
  | _ => none

end Fault

namespace Violation

def toJson (v : Violation) : Json :=
  obj [("location", str v.location), ("failed", ofStrings v.failed), ("state", str v.state)]

def ofJson? (j : Json) : Option Violation := do
  match ← record? ["location", "failed", "state"] j with
  | [location, failed, state] =>
    return ⟨← required? string? location, ← required? (list? string?) failed,
      ← required? string? state⟩
  | _ => none

end Violation

namespace Verdict

def toJson : Verdict → Json
  | holds => str "Holds"
  | violated v => obj [("Violated", v.toJson)]

def ofJson? (j : Json) : Option Verdict := do
  match ← variant? j with
  | ("Holds", payload) => unit? holds payload
  | ("Violated", some payload) => return violated (← Violation.ofJson? payload)
  | _ => none

end Verdict

namespace Record

def toJson (r : Record) : Json := obj [("location", str r.location), ("message", str r.message)]

def ofJson? (j : Json) : Option Record := do
  match ← record? ["location", "message"] j with
  | [location, message] => return ⟨← required? string? location, ← required? string? message⟩
  | _ => none

end Record

namespace CheckResult

def toJson : CheckResult → Json
  | holds => str "Holds"
  | violated records => obj [("Violated", Json.ofList Record.toJson records)]
  | invalidFixture reason => obj [("InvalidFixture", str reason)]

def ofJson? (j : Json) : Option CheckResult := do
  match ← variant? j with
  | ("Holds", payload) => unit? holds payload
  | ("Violated", some payload) => return violated (← list? Record.ofJson? payload)
  | ("InvalidFixture", some payload) => return invalidFixture (← string? payload)
  | _ => none

end CheckResult
end VerifierBench
