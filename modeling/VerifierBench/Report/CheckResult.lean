import VerifierBench.Report.Sink

/-! The outcome of checking one program, as the exit status tells it. -/
namespace VerifierBench

inductive CheckResult
  | holds
  | violated (records : List Record)
  | invalidFixture (reason : String)
  deriving DecidableEq, Repr

namespace CheckResult

def isHolds : CheckResult → Bool
  | holds => true
  | _ => false

/-- The location is violated if anything was reported. -/
def ofRecords : List Record → CheckResult
  | [] => holds
  | r :: rs => violated (r :: rs)

/-- The exit status: 0 if the error is unreachable, 1 if it was reached, 2 if nothing could run. -/
def exitCode : CheckResult → Nat
  | holds => 0
  | violated _ => 1
  | invalidFixture _ => 2

end CheckResult
end VerifierBench
