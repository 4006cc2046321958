/-
PcEngine/Log/State.lean

The log: which messages are wanted, and which of those get through.

A category has a level of its own or, if that is `off`, the global level.  A
message is wanted if it is at most as detailed as that level; a message of
level `off` never is.  Wanted messages go through the limiter of their
category.

Recording a message gives the lines to be written: a summary of dropped
messages, the message, both, or nothing.  A message is put into words only when
it is written.  This is why `recordM` takes a computation for the words: running
it may be seen, and `recordM` says when it runs.

The clock of the log stands still except for `wait`.
-/
import PcEngine.Log.Limiter
import PcEngine.Notice

namespace PcEngine.Log

/-! ### Lines -/

/-- A line of the log: a message, or how many were dropped. -/
inductive Line where
  | message (category : Category) (text : String)
  | dropped (category : Category) (count : Nat)
  deriving DecidableEq

/-- The line as it is written. -/
def Line.render : Line → String
  | .message c text => "[" ++ c.name ++ "] " ++ text
  | .dropped c count =>
    "[" ++ c.name ++ "] WARNING: Rate limit exceeded, " ++ toString count ++
      " log message(s) dropped in the last second"

/-! ### One thing per category -/

/-- The place of a category among all of them. -/
def Category.index : Category → Fin 8
  | .bus => 0
  | .mapper => 1
  | .video => 2
  | .audio => 3
  | .timer => 4
  | .interrupts => 5
  | .input => 6
  | .stubs => 7

/-- A table with one entry per category. -/
abbrev PerCategory (α : Type) := Vector α 8

/-- The limit of a log that is not told otherwise, in messages per second and
category. -/
def standardLimit : Nat := 60

/-- The log.

* `globalLevel` — the level of categories without one of their own;
* `levels` — the levels of the categories, `off` for none;
* `limit` — how many messages of a category get through in a second;
* `limiters` — where each category stands;
* `now` — the time since the log was made. -/
structure State where
  globalLevel : Level
  levels : PerCategory Level
  limit : Nat
  limiters : PerCategory Limiter
  now : Moment

namespace State

/-- Everything off, nothing recorded. -/
def fresh : State := ⟨.off, .replicate 8 .off, standardLimit, .replicate 8 .fresh, 0⟩

/-! ### Levels -/

/-- The level of a category's own. -/
def level (s : State) (c : Category) : Level := s.levels[c.index]

def setLevel (s : State) (c : Category) (l : Level) : State :=
  { s with levels := s.levels.set c.index.val l c.index.isLt }

def setGlobalLevel (s : State) (l : Level) : State := { s with globalLevel := l }

/-- Turn every level off. -/
def silence (s : State) : State :=
  { s with globalLevel := .off, levels := .replicate 8 .off }

def setLimit (s : State) (limit : Nat) : State := { s with limit := limit }

/-- The level that applies to a category. -/
def effectiveLevel (s : State) (c : Category) : Level :=
  if s.level c = .off then s.globalLevel else s.level c

/-- Whether a message is wanted. -/
def wants (s : State) (c : Category) (l : Level) : Bool :=
  l ≠ .off && l.rank ≤ (s.effectiveLevel c).rank

/-! ### Messages -/

/-- The limiter of a category. -/
def limiter (s : State) (c : Category) : Limiter := s.limiters[c.index]

def setLimiter (s : State) (c : Category) (l : Limiter) : State :=
  { s with limiters := s.limiters.set c.index.val l c.index.isLt }

/-- The line of a verdict's summary; a summary of nothing is not written. -/
def summaryLines (c : Category) (v : Verdict) : List Line :=
  match v.summary.filter (0 < ·) with
  | some count => [.dropped c count]
  | none => []

/-- Record a message whose words come from a computation; gives the lines to be
written. -/
@[inline] def recordM {μ : Type → Type} [Monad μ] (s : State) (c : Category) (l : Level)
    (text : Unit → μ String) : μ (List Line × State) :=
  if s.wants c l then
    let (verdict, limiter) := (s.limiter c).judge s.now s.limit
    let s := s.setLimiter c limiter
    if verdict.passes then do
      let words ← text ()
      pure (summaryLines c verdict ++ [.message c words], s)
    else pure (summaryLines c verdict, s)
  else pure ([], s)

/-- Record a message; gives the lines to be written. -/
def record (s : State) (c : Category) (l : Level) (text : Unit → String) :
    List Line × State :=
  Id.run (s.recordM c l fun _ => pure (text ()))

/-- Record a notice. -/
def recordNotice (s : State) (n : Notice) : List Line × State :=
  s.record n.category n.level fun _ => n.text

/-- Let time pass. -/
def wait (s : State) (span : Nat) : State := { s with now := s.now + span }

/-! ### Histories -/

/-- What can be done to a log. -/
inductive Op where
  | record (c : Category) (l : Level) (text : String)
  | setLevel (c : Category) (l : Level)
  | setGlobalLevel (l : Level)
  | silence
  | setLimit (limit : Nat)
  | wait (span : Nat)

/-- Carry out an operation; gives the lines to be written. -/
def step (s : State) : Op → List Line × State
  | .record c l text => s.record c l fun _ => text
  | .setLevel c l => ([], s.setLevel c l)
  | .setGlobalLevel l => ([], s.setGlobalLevel l)
  | .silence => ([], s.silence)
  | .setLimit limit => ([], s.setLimit limit)
  | .wait span => ([], s.wait span)

/-- Carry out operations one after the other; gives all lines in order. -/
def run (s : State) : List Op → List Line × State
  | [] => ([], s)
  | op :: ops =>
    let (lines, s) := s.step op
    let (more, s) := s.run ops
    (lines ++ more, s)

end State

end PcEngine.Log
