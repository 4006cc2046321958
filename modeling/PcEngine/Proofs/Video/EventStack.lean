/-
PcEngine/Proofs/Video/EventStack.lean

The queue of pending events is a bounded stack of events.

What the queue stands for is a list, oldest event first.  An event goes in at the
end, and if that makes the list too long, the event at its front is lost; events
are taken from the end.  The list has no places, and so no stale ones.

A queue holds a list (`Holds`) if its filled places are the list.  The other places
may hold anything: what the queue shows is told by the filled places alone
(`Holds.peek`), and each operation fills its places out of filled ones
(`Holds.push`, `Holds.pop`).  A full queue moves its events to the left and a queue
with room does not; `toList_dropOldest` is about the first, and the new event goes
in behind the filled places either way (`Holds.append`).

Main result: `answersAs_boundedStack`.
-/
import PcEngine.Proofs.History
import PcEngine.Video.EventQueue

namespace PcEngine.Video

/-! ### Lists of events -/

namespace EventStack

/-- Add an event at the end; a list that is too long then loses its front. -/
def push (events : List Event) (e : Event) : List Event :=
  if queueDepth < (events ++ [e]).length then (events ++ [e]).tail else events ++ [e]

/-- Carry out an operation; gives the event taken. -/
def step (events : List Event) : EventQueue.Op → Option Event × List Event
  | .push e => (none, push events e)
  | .pop => (events.getLast?, events.dropLast)

/-- Carry out operations one after the other. -/
def run (events : List Event) (ops : List EventQueue.Op) : List Event :=
  ops.foldl (fun events op => (step events op).2) events

/-- What each operation gives, in order. -/
def answers (events : List Event) (ops : List EventQueue.Op) : List (Option Event) :=
  collect (fun events op => (step events op).2) (fun events op => [(step events op).1]) events ops

end EventStack

namespace EventQueue

/-- What each operation gives, in order. -/
def answers (q : EventQueue) (ops : List Op) : List (Option Event) :=
  collect (fun q op => (q.step op).2) (fun q op => [(q.step op).1]) q ops

/-! ### Holding a list -/

/-- The queue holds these events, oldest first. -/
structure Holds (q : EventQueue) (events : List Event) : Prop where
  toList : q.toList = events
  count : q.count = events.length

variable {q : EventQueue} {events : List Event}

theorem holds_empty : empty.Holds [] := ⟨rfl, rfl⟩

theorem getElem?_toList (q : EventQueue) (i : Nat) :
    q.toList[i]? = if i < q.count then q.places[i]? else none := by
  rw [toList, List.getElem?_take, Vector.getElem?_toList]

/-- The events left after the oldest one has been dropped. -/
theorem toList_dropOldest (h : q.count ≤ queueDepth) : q.dropOldest.toList = q.toList.tail := by
  refine List.ext_getElem? fun i => ?_
  rw [List.getElem?_tail, getElem?_toList, getElem?_toList]
  show (if i < q.count - 1 then q.dropOldest.places[i]? else none) = _
  by_cases hi : i + 1 < q.count
  · have hplace : i < queueDepth := by omega
    have hnext : i + 1 < queueDepth := by omega
    rw [if_pos (by omega), if_pos hi]
    simp only [dropOldest, Vector.getElem?_eq_getElem hplace, Vector.getElem_ofFn,
      Vector.getElem?_eq_getElem hnext, Option.getD_some]
  · rw [if_neg (by omega), if_neg hi]

/-- The event behind the filled places is the newest one. -/
theorem toList_append {places : Vector Event queueDepth} {count : Nat} (h : count < queueDepth)
    (e : Event) :
    toList ⟨places.setIfInBounds count e, count + 1⟩ = toList ⟨places, count⟩ ++ [e] := by
  have hplace : count < places.toList.length := by rwa [Vector.length_toList]
  show (places.setIfInBounds count e).toList.take (count + 1) = places.toList.take count ++ [e]
  rw [Vector.toList_setIfInBounds, List.take_add_one, List.take_set_of_le (Nat.le_refl count),
    List.getElem?_set_self hplace, Option.toList_some]

namespace Holds

theorem count_le (h : q.Holds events) : q.count ≤ queueDepth := by
  have hlength : events.length = min q.count queueDepth := by
    rw [← h.toList, EventQueue.toList, List.length_take, Vector.length_toList]
  rw [h.count, hlength]
  exact Nat.min_le_right q.count queueDepth

theorem isEmpty (h : q.Holds events) : q.isEmpty = events.isEmpty := by
  rw [EventQueue.isEmpty, h.count]
  rcases events with - | ⟨e, events⟩ <;> rfl

/-- The newest event stands at the last filled place. -/
theorem peek (h : q.Holds events) : q.peek = events.getLast? := by
  rw [List.getLast?_eq_getElem?, ← h.count, ← h.toList, getElem?_toList, EventQueue.peek]
  by_cases hcount : q.count = 0
  · rw [if_pos hcount, if_neg (by omega)]
  · rw [if_neg hcount, if_pos (by omega)]

theorem pop (h : q.Holds events) : q.pop.2.Holds events.dropLast where
  toList := by
    show q.places.toList.take (q.count - 1) = events.dropLast
    rw [List.dropLast_eq_take, ← h.count, ← h.toList, EventQueue.toList, List.take_take,
      Nat.min_eq_left (Nat.sub_le q.count 1)]
  count := by
    rw [List.length_dropLast, ← h.count]
    rfl

theorem dropOldest (h : q.Holds events) : q.dropOldest.Holds events.tail where
  toList := by rw [toList_dropOldest h.count_le, h.toList]
  count := by
    rw [List.length_tail, ← h.count]
    rfl

theorem append (h : q.Holds events) (hroom : q.count < queueDepth) (e : Event) :
    Holds ⟨q.places.setIfInBounds q.count e, q.count + 1⟩ (events ++ [e]) where
  toList := by
    rw [toList_append hroom]
    exact congrArg (· ++ [e]) h.toList
  count := by rw [List.length_append, List.length_singleton, h.count]

theorem push (h : q.Holds events) (e : Event) : (q.push e).Holds (EventStack.push events e) := by
  have hlength : (events ++ [e]).length = q.count + 1 := by
    rw [List.length_append, List.length_singleton, h.count]
  rw [EventQueue.push, EventStack.push, hlength]
  by_cases hfull : q.count = queueDepth
  · have hsome : events ≠ [] := by
      rintro rfl
      have hnone : q.count = 0 := h.count
      rw [hfull] at hnone
      exact absurd hnone (by decide)
    have hroom : q.dropOldest.count < queueDepth := by
      show q.count - 1 < queueDepth
      rw [hfull]
      decide
    rw [if_pos hfull, if_pos (by omega), List.tail_append_of_ne_nil hsome]
    exact h.dropOldest.append hroom e
  · have hroom : q.count < queueDepth := Nat.lt_of_le_of_ne h.count_le hfull
    rw [if_neg hfull, if_neg (by omega)]
    exact h.append hroom e

/-! ### Operations -/

theorem step_fst (h : q.Holds events) (op : Op) :
    (q.step op).1 = (EventStack.step events op).1 := by
  cases op with
  | push e => rfl
  | pop => exact h.peek

theorem step_snd (h : q.Holds events) (op : Op) :
    (q.step op).2.Holds (EventStack.step events op).2 := by
  cases op with
  | push e => exact h.push e
  | pop => exact h.pop

theorem run (h : q.Holds events) (ops : List Op) :
    (q.run ops).Holds (EventStack.run events ops) := by
  induction ops generalizing q events with
  | nil => exact h
  | cons op ops ih => exact ih (h.step_snd op)

theorem answers (h : q.Holds events) (ops : List Op) :
    q.answers ops = EventStack.answers events ops := by
  induction ops generalizing q events with
  | nil => rfl
  | cons op ops ih =>
    show (q.step op).1 :: (q.step op).2.answers ops =
      (EventStack.step events op).1 :: EventStack.answers (EventStack.step events op).2 ops
    rw [h.step_fst op, ih (h.step_snd op)]

end Holds

/-! ### Stale places -/

/-- The queue with something else in the places at and beyond the count. -/
def withStale (q : EventQueue) (stale : Vector Event queueDepth) : EventQueue where
  places := .ofFn fun i => if i.val < q.count then q.places.get i else stale.get i
  count := q.count

/-- A queue holds its events whatever the stale places are. -/
theorem Holds.withStale (h : q.Holds events) (stale : Vector Event queueDepth) :
    (q.withStale stale).Holds events where
  toList := by
    rw [← h.toList]
    refine List.ext_getElem? fun i => ?_
    rw [getElem?_toList, getElem?_toList]
    show (if i < q.count then (q.withStale stale).places[i]? else none) = _
    by_cases hi : i < q.count
    · have hplace : i < queueDepth := Nat.lt_of_lt_of_le hi h.count_le
      simp only [EventQueue.withStale, if_pos hi, Vector.getElem?_eq_getElem hplace,
        Vector.getElem_ofFn]
      rfl
    · rw [if_neg hi, if_neg hi]
  count := h.count

/-! ### A bounded stack -/

/-- Along these operations nothing tells the queue from the list.

* `answers` — every operation gives the same;
* `peek`, `count`, `isEmpty` — what is seen of the queue after them is the end of
  the list, its length, and whether there is nothing in it. -/
structure AnswersAs (q : EventQueue) (events : List Event) (ops : List Op) : Prop where
  answers : q.answers ops = EventStack.answers events ops
  peek : (q.run ops).peek = (EventStack.run events ops).getLast?
  count : (q.run ops).count = (EventStack.run events ops).length
  isEmpty : (q.run ops).isEmpty = (EventStack.run events ops).isEmpty

theorem Holds.answersAs (h : q.Holds events) (ops : List Op) : q.AnswersAs events ops :=
  ⟨h.answers ops, (h.run ops).peek, (h.run ops).count, (h.run ops).isEmpty⟩

/-- **The queue is a bounded stack.**  From the start nothing tells it from the list
that starts empty.  At any moment its stale places can be filled with anything, and
still nothing that is done later tells it from the list. -/
theorem answersAs_boundedStack (ops : List Op) :
    empty.AnswersAs [] ops ∧
      ∀ stale later, ((empty.run ops).withStale stale).AnswersAs (EventStack.run [] ops) later := by
  refine ⟨holds_empty.answersAs ops, fun stale later => ?_⟩
  exact ((holds_empty.run ops).withStale stale).answersAs later

/-- Five events, of which the first is lost, and one more over a stale place. -/
example :
    empty.answers [.push .spriteCollision, .push .spriteOverflow, .push .rasterMatch,
      .push .verticalBlank, .push .spriteOverflow, .pop, .pop, .push .vramTransferDone, .pop, .pop,
      .pop, .pop] =
    [none, none, none, none, none, some .spriteOverflow, some .verticalBlank, none,
      some .vramTransferDone, some .rasterMatch, some .spriteOverflow, none] := by decide

end EventQueue

end PcEngine.Video
