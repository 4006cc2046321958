/-
PcEngine/Video/EventQueue.lean

The pending events of the video controller: at most four, newest first out.

The queue is a row of four places filled from the left.  Taking an event only
lowers the count, so places at or beyond the count hold stale events; nothing
reads them.  An event that arrives at a full queue pushes the oldest one out.
`toList` is the contents without the stale places, oldest event first.
-/
import PcEngine.Video.Event

namespace PcEngine.Video

/-- How many events can be pending. -/
def queueDepth : Nat := 4

/-- Pending events.

* `places` — the events, oldest first, then stale ones;
* `count` — how many of the places are filled. -/
structure EventQueue where
  places : Vector Event queueDepth
  count : Nat

namespace EventQueue

/-- No event pending. -/
def empty : EventQueue := ⟨Vector.replicate queueDepth .verticalBlank, 0⟩

/-- The pending events, oldest first. -/
def toList (q : EventQueue) : List Event := q.places.toList.take q.count

def isEmpty (q : EventQueue) : Bool := q.count == 0

/-- Move all events one place to the left, over the oldest. -/
def dropOldest (q : EventQueue) : EventQueue where
  places := .ofFn fun i => q.places[i.val + 1]?.getD q.places[i]
  count := q.count - 1

/-- Add an event, dropping the oldest one if there is no room. -/
def push (q : EventQueue) (e : Event) : EventQueue :=
  let q := if q.count = queueDepth then q.dropOldest else q
  { places := q.places.setIfInBounds q.count e, count := q.count + 1 }

/-- The newest event. -/
def peek (q : EventQueue) : Option Event :=
  if q.count = 0 then none else q.places[q.count - 1]?

/-- Take the newest event. -/
def pop (q : EventQueue) : Option Event × EventQueue :=
  (q.peek, { q with count := q.count - 1 })

/-! ### Operations -/

/-- Something to do with a queue. -/
inductive Op where
  | push (e : Event)
  | pop

/-- Carry out an operation; gives the event taken. -/
def step (q : EventQueue) : Op → Option Event × EventQueue
  | .push e => (none, q.push e)
  | .pop => q.pop

/-- Carry out operations one after the other. -/
def run (q : EventQueue) (ops : List Op) : EventQueue := ops.foldl (fun q op => (q.step op).2) q

end EventQueue

end PcEngine.Video
