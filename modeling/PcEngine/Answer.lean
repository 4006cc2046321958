/-
PcEngine/Answer.lean

What an operation gives back.
-/
import PcEngine.Video.Event

namespace PcEngine

/-- The result of an operation.

* `done` — nothing to say;
* `byte`, `word` — what was read;
* `flag` — whether something happened;
* `event` — an event of the video controller, if there was one. -/
inductive Answer where
  | done
  | byte (value : Byte)
  | word (value : Word)
  | flag (value : Bool)
  | event (value : Option Video.Event)
  deriving DecidableEq

end PcEngine
