import VerifierBench.Error

/-! Reading positions, sextuples and faults. Each text that is refused is refused with the first
problem from the left. -/
namespace VerifierBench

def Position.read (text : List Char) : Except Error Position :=
  match Position.ofText? text with
  | some p => .ok p
  | none => .error (.invalidPosition (String.ofList text))

def Sextuple.read (text : String) : Except Error Sextuple :=
  match Sextuple.ofText? text.toList with
  | some v => .ok v
  | none => .error (.invalidSextuple text)

namespace FaultSite

/-- The site named by the fields before the conjunct, in order of the candidate's cascade. -/
def read (text : String) : List (List Char) → Except Error FaultSite
  | [['m', 'a', 'x'], candidate] => do
    return .maxGuard (← Position.read candidate)
  | [['m', 'i', 'n'], max, candidate] => do
    let max ← Position.read max
    return .minGuard max (← Position.read candidate)
  | _ => .error (.invalidFault text)

end FaultSite

namespace Fault

/-- The two names of the published fault, in any letter case. -/
def isAlias (text : List Char) : Bool :=
  let lower := text.map Char.toLower
  lower == "ko2".toList || lower == "maxmin6-ko2".toList

/-- Reads the conjunct and the comparison of a fault whose site is known. -/
def readAt (text : String) (site : FaultSite) (conjunct comparison : List Char) :
    Except Error Fault :=
  match Text.readUInt64 conjunct with
  | .error _ => .error (.invalidFault text)
  | .ok n =>
    match Text.cut site.extremum.operator comparison with
    | none => .error (.invalidFault text)
    | some (lhs, rhs) => do
      let lhs ← Position.read lhs
      return ⟨site, n, ⟨lhs, ← Position.read rhs⟩⟩

/-- Reads `ko2`, `max:<candidate>:<conjunct>:<lhs>><rhs>` or
`min:<max>:<candidate>:<conjunct>:<lhs><<rhs>`. -/
def read (text : String) : Except Error Fault :=
  let trimmed := Text.trim text.toList
  if isAlias trimmed then .ok ko2
  else match Text.fields ':' trimmed with
    | [kind, candidate, conjunct, comparison] => do
      let site ← FaultSite.read text [kind, candidate]
      readAt text site conjunct comparison
    | [kind, max, candidate, conjunct, comparison] => do
      let site ← FaultSite.read text [kind, max, candidate]
      readAt text site conjunct comparison
    | _ => .error (.invalidFault text)

end Fault
end VerifierBench
