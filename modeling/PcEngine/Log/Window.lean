/-
PcEngine/Log/Window.lean

The messages of the last second, by the moments at which they got through.

A window is a queue: moments go in at the back and leave at the front once they
are more than a second old.  It is kept as two lists, `front` with the oldest
moment first and `back` with the newest first, so that a moment goes in without
a walk through the queue; `size` is carried along for the same reason.
`Window.toList` is the queue as one list, and all that is said about a window is
said about that list.
-/

namespace PcEngine.Log

/-- A moment, in nanoseconds of a clock that never runs backwards. -/
abbrev Moment := Nat

/-- A second, in nanoseconds. -/
def second : Nat := 1000000000

/-- Whether a moment is too old to be in the window. -/
def isOld (now moment : Moment) : Bool := second < now - moment

/-- A queue of moments; the fields are described at the head of the file. -/
structure Window where
  front : List Moment
  back : List Moment
  size : Nat
  size_eq : size = front.length + back.length

namespace Window

/-- No moments. -/
def empty : Window := ⟨[], [], 0, rfl⟩

/-- All moments, oldest first. -/
def toList (w : Window) : List Moment := w.front ++ w.back.reverse

/-- The window of a list, oldest first. -/
def ofList (moments : List Moment) : Window := ⟨moments, [], moments.length, rfl⟩

/-- Put a moment in. -/
def push (w : Window) (moment : Moment) : Window :=
  ⟨w.front, moment :: w.back, w.size + 1, by
    rw [w.size_eq, List.length_cons, Nat.add_assoc]⟩

/-- Let go of the moments that have become too old. -/
def expire (w : Window) (now : Moment) : Window :=
  match w.front with
  | oldest :: _ => if isOld now oldest then ofList (w.toList.dropWhile (isOld now)) else w
  | [] => ofList (w.toList.dropWhile (isOld now))

/-! ### The queue as a list -/

theorem size_eq_length (w : Window) : w.size = w.toList.length := by
  rw [w.size_eq, toList, List.length_append, List.length_reverse]

@[simp] theorem toList_empty : empty.toList = [] := rfl

@[simp] theorem toList_ofList (moments : List Moment) : (ofList moments).toList = moments :=
  List.append_nil moments

@[simp] theorem toList_push (w : Window) (moment : Moment) :
    (w.push moment).toList = w.toList ++ [moment] := by
  simp only [toList, push, List.reverse_cons, List.append_assoc]

theorem toList_expire (w : Window) (now : Moment) :
    (w.expire now).toList = w.toList.dropWhile (isOld now) := by
  unfold expire
  split
  · rename_i oldest newer hfront
    split
    · exact toList_ofList _
    · -- the oldest moment stays, so all of them do
      rename_i hyoung
      rw [toList, hfront, List.cons_append, List.dropWhile_cons_of_neg hyoung]
  · exact toList_ofList _

end Window

end PcEngine.Log
