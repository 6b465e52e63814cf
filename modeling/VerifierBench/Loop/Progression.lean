import VerifierBench.Loop.Basic

/-! Arithmetic progressions: the counter of a loop after each run of its body. -/
namespace VerifierBench

/-- The values `start + k * delta` for `k` from one to `count`. -/
structure Progression where
  start : Int32
  delta : Int32
  count : UInt64
  deriving DecidableEq, Repr

/-- Whether a word is one of the values, on unbounded integers. -/
def Progression.contains (p : Progression) (x : Int32) : Bool :=
  let offset := x.toInt - p.start.toInt
  let delta := p.delta.toInt
  if p.count = 0 then false
  else if delta = 0 then decide (offset = 0)
  else decide (offset % delta = 0 ∧ 1 ≤ offset / delta ∧ offset / delta ≤ p.count.toNat)

end VerifierBench
