/-
PcEngine/Interrupt/Source.lean

Who can interrupt the processor.
-/

namespace PcEngine.Interrupt

/-- A device with an interrupt request line: expansion hardware, the video
controller or the timer. -/
inductive Source where
  | external
  | video
  | timer
  deriving DecidableEq

/-- The name in messages. -/
def Source.name : Source → String
  | .external => "External"
  | .video => "Vdc"
  | .timer => "Timer"

end PcEngine.Interrupt
