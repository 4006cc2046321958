/-
PcEngine/Video/Event.lean

The events of the video controller that can interrupt the processor.

An event's code is also the number of the bit it sets in the status latch.
-/
import PcEngine.Word

namespace PcEngine.Video

/-- Something the video controller tells the processor about. -/
inductive Event where
  | spriteCollision
  | spriteOverflow
  | rasterMatch
  | spriteTransferDone
  | vramTransferDone
  | verticalBlank
  deriving DecidableEq

namespace Event

/-- All events, by code. -/
def all : List Event :=
  [.spriteCollision, .spriteOverflow, .rasterMatch, .spriteTransferDone, .vramTransferDone,
    .verticalBlank]

def code : Event → Nat
  | .spriteCollision => 0
  | .spriteOverflow => 1
  | .rasterMatch => 2
  | .spriteTransferDone => 3
  | .vramTransferDone => 4
  | .verticalBlank => 5

/-- The bit of the event in the status latch. -/
def statusBit (e : Event) : Byte := 1 <<< UInt8.ofNat e.code

end Event

end PcEngine.Video
