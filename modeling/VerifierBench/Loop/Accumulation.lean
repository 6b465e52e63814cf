import VerifierBench.Error

/-! Accumulation: a counter to which constants are added many times. Words wrap around, so `count`
additions of `delta` are one addition of their product modulo `2 ^ 32`. The closed form is compared
with the literal iteration when that is short enough. -/
namespace VerifierBench

/-- The change made by all additions of a step. -/
def Step.net (s : Step) : Int32 := s.count.toUInt32.toInt32 * s.delta

theorem toNat_sub_one_add_one {n : UInt64} (h : n ≠ 0) : (n - 1).toNat + 1 = n.toNat := by
  have hne : n.toNat ≠ 0 := fun hzero => h (UInt64.toNat_inj.mp hzero)
  have hone : (1 : UInt64) ≤ n := UInt64.le_iff_toNat_le.mpr (Nat.one_le_iff_ne_zero.mpr hne)
  rw [UInt64.toNat_sub_of_le _ _ hone, UInt64.toNat_one]
  omega

/-- Adds `delta` to a counter `count` times, one addition after another. The count is a word, not a
number: compiled code then gets through a loop of any 64-bit length. -/
@[semireducible]
def addTimes (delta : Int32) (count : UInt64) (x : Int32) : Int32 :=
  if count = 0 then x else addTimes delta (count - 1) (x + delta)
termination_by count.toNat
decreasing_by
  have := toNat_sub_one_add_one ‹count ≠ 0›
  omega

/-- A counter with the steps applied to it. -/
structure Accumulation where
  initial : Int32
  steps : List Step
  deriving DecidableEq, Repr

/-- A final value, and whether it was confirmed by iteration. -/
structure Summary where
  value : Int32
  crossChecked : Bool
  deriving DecidableEq, Repr

namespace Accumulation

/-- The final value by literal iteration. -/
def iterated (a : Accumulation) : Int32 :=
  a.steps.foldl (fun x s => addTimes s.delta s.count x) a.initial

/-- The final value by one addition a step. -/
def closedForm (a : Accumulation) : Int32 :=
  a.steps.foldl (fun x s => x + s.net) a.initial

/-- The sum of two counts, or the largest count if it is smaller. -/
def saturatingAdd (m n : UInt64) : UInt64 :=
  if m.toNat + n.toNat < UInt64.size then m + n else UInt64.ofNat (UInt64.size - 1)

/-- The number of additions, at most the largest count. -/
def totalIterations (a : Accumulation) : UInt64 :=
  a.steps.foldl (fun total s => saturatingAdd total s.count) 0

/-- The closed form, compared with the iteration if that takes at most `limit` additions. -/
def run (a : Accumulation) (limit : UInt64) : Except Error Summary :=
  if limit < a.totalIterations then .ok ⟨a.closedForm, false⟩
  else if a.iterated = a.closedForm then .ok ⟨a.closedForm, true⟩
  else .error (.summaryMismatch a.iterated a.closedForm)

end Accumulation
end VerifierBench
