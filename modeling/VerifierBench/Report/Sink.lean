/-! Error sinks. Reaching an error location is the observable event of a benchmark program; a sink
says what becomes of it. Sinks are described by their effect on a memory, so that one description
serves recorders, loggers and tees of them. -/
namespace VerifierBench

structure Location where
  program : String
  label : String
  deriving DecidableEq, Repr

def Location.text (l : Location) : String := l.program ++ "::" ++ l.label

/-- A report as it is kept. -/
structure Record where
  location : String
  message : String
  deriving DecidableEq, Repr

/-- What a memory becomes when a location is reached with some detail. -/
structure Sink (μ : Type) where
  reach : Location → String → μ → μ

namespace Sink
variable {μ ν : Type}

/-- Keeps every report, in order. -/
def recorder : Sink (Array Record) := ⟨fun l detail kept => kept.push ⟨l.text, detail⟩⟩

/-- Writes a line for every report. -/
def logger : Sink (Array String) :=
  ⟨fun l detail lines => lines.push (l.text ++ " reached: " ++ detail)⟩

/-- Forwards every report to two sinks, the first one first. -/
def tee (s t : Sink μ) : Sink μ := ⟨fun l detail m => t.reach l detail (s.reach l detail m)⟩

/-- A sink on the first of two memories. -/
def onFirst (s : Sink μ) : Sink (μ × ν) := ⟨fun l detail m => (s.reach l detail m.1, m.2)⟩

/-- A sink on the second of two memories. -/
def onSecond (s : Sink ν) : Sink (μ × ν) := ⟨fun l detail m => (m.1, s.reach l detail m.2)⟩

@[simp] theorem reach_tee (s t : Sink μ) (l : Location) (detail : String) (m : μ) :
    (tee s t).reach l detail m = t.reach l detail (s.reach l detail m) := rfl

end Sink

/-- The memories of named recorders and named loggers. -/
structure Board (ι : Type) where
  recorded : ι → Array Record
  logged : ι → Array String

def Board.empty {ι : Type} : Board ι := ⟨fun _ => #[], fun _ => #[]⟩

/-- A sink on a board: a recorder, a logger, or a tee of two. -/
inductive Wiring (ι : Type)
  | recorder (i : ι)
  | logger (i : ι)
  | tee (first second : Wiring ι)
  deriving DecidableEq, Repr

namespace Wiring
variable {ι : Type} [DecidableEq ι]

def sink : Wiring ι → Sink (Board ι)
  | recorder i => ⟨fun l detail m =>
      { m with recorded := fun j =>
          if j = i then Sink.recorder.reach l detail (m.recorded j) else m.recorded j }⟩
  | logger i => ⟨fun l detail m =>
      { m with logged := fun j =>
          if j = i then Sink.logger.reach l detail (m.logged j) else m.logged j }⟩
  | tee s t => .tee s.sink t.sink

end Wiring
end VerifierBench
