/-
PcEngine/Log/Limiter.lean

How many messages of one category get through.

A limiter lets a number of messages through within a second and drops the
rest.  Dropped messages are counted, and the count is given out as a summary:
with the first message that gets through again, or with a dropped one if no
summary has been given for a second.
-/
import PcEngine.Log.Window

namespace PcEngine.Log

/-- The limiter of one category.

* `window` — the messages let through in the last second;
* `dropped` — messages dropped since the last summary;
* `reported` — when the last summary was given. -/
structure Limiter where
  window : Window
  dropped : Nat
  reported : Option Moment

/-- What becomes of a message: whether it gets through, and the count of a
summary that goes before it. -/
structure Verdict where
  passes : Bool
  summary : Option Nat
  deriving DecidableEq

namespace Limiter

/-- Nothing passed, nothing dropped. -/
def fresh : Limiter := ⟨.empty, 0, none⟩

/-- Whether a dropped message is to be reported: not within a second of the last
summary. -/
def reportDue (l : Limiter) (now : Moment) : Bool :=
  match l.reported with
  | some last => second ≤ now - last
  | none => true

/-- Decide about a message, under a limit. -/
def judge (l : Limiter) (now : Moment) (limit : Nat) : Verdict × Limiter :=
  let window := l.window.expire now
  if window.size < limit then
    if l.dropped = 0 then (⟨true, none⟩, { l with window := window.push now })
    else (⟨true, some l.dropped⟩, ⟨window.push now, 0, some now⟩)
  else if l.reportDue now then (⟨false, some (l.dropped + 1)⟩, ⟨window, 0, some now⟩)
  else (⟨false, none⟩, { l with window := window, dropped := l.dropped + 1 })

end Limiter

end PcEngine.Log
