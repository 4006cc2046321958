/-
PcEngine/Session.lean

A session: settings, a machine while a card is mounted, and the cycles that it
has run.

The only mount point takes a card image, with or without a copier header.
Operations on the machine need a card.

What is done to a session is an `Action`: it may be refused, and then says why.
What an action has done before it is refused stays done, so the actions here
check first and change the session afterwards.
-/
import PcEngine.Machine.Operation

namespace PcEngine

/-- A place that media can be put into.

* `name` — what operations call it;
* `title` — what people call it;
* `extensions` — the file name extensions of its media;
* `required` — whether the machine needs it filled. -/
structure MountPoint where
  name : String
  title : String
  extensions : List String
  required : Bool

/-- A session.

* `settings` — what machines are built with;
* `machine` — the machine, while a card is mounted;
* `cycles` — the cycles since the card was mounted or the machine reset. -/
structure Session where
  settings : Settings
  machine : Option Machine
  cycles : UInt64

namespace Session

/-- The mount point for cards. -/
def cardPoint : MountPoint where
  name := "cartridge"
  title := "HuCard"
  extensions := ["pce"]
  required := true

/-- All mount points. -/
def mountPoints : List MountPoint := [cardPoint]

/-- A session without a card. -/
def ofSettings (settings : Settings) : Session := ⟨settings, none, 0⟩

/-- Whether a mount point is filled. -/
def isMounted (s : Session) (point : String) : Bool :=
  point = cardPoint.name && s.machine.isSome

/-- Something done to a session, which may be refused on the way. -/
abbrev Action (α : Type) := ExceptT Error (StateM Session) α

namespace Action

variable {α β : Type}

/-- An action that is refused ends everything that was to come after it. -/
theorem run_bind (x : Action α) (f : α → Action β) (s : Session) :
    (x >>= f).run.run s =
      match x.run.run s with
      | (.ok a, s') => (f a).run.run s'
      | (.error e, s') => (.error e, s') := by
  rw [ExceptT.run_bind, StateT.run_bind]
  rcases x.run.run s with ⟨_ | a, s'⟩ <;> rfl

theorem run_bind_of_error {x : Action α} {s s' : Session} {e : Error}
    (h : x.run.run s = (.error e, s')) (f : α → Action β) :
    (x >>= f).run.run s = (.error e, s') := by
  rw [run_bind, h]

theorem run_bind_of_ok {x : Action α} {s s' : Session} {a : α}
    (h : x.run.run s = (.ok a, s')) (f : α → Action β) :
    (x >>= f).run.run s = (f a).run.run s' := by
  rw [run_bind, h]

theorem run_pure (a : α) (s : Session) : (pure a : Action α).run.run s = (.ok a, s) := rfl

theorem run_lift (x : Except Error α) (s : Session) :
    (liftM x : Action α).run.run s = (x, s) := rfl

theorem run_get (s : Session) : (get : Action Session).run.run s = (.ok s, s) := rfl

theorem run_modify (f : Session → Session) (s : Session) :
    (modify f : Action Unit).run.run s = (.ok (), f s) := rfl

end Action

/-- The error of a mount point that does not exist. -/
def checkPoint (point : String) : Except Error Unit :=
  if point = cardPoint.name then .ok () else .error (.unknownMountPoint point)

/-! ### Mounting -/

/-- Bind a ROM image as a card describes it.  The machine before it is there until
the new one is. -/
def load (rom : Array Byte) (card : Card) : Action Unit := do
  let machine ← Machine.powerOn rom card (← get).settings
  modify fun s => { s with machine := some machine }
  modify fun s => { s with cycles := 0 }

/-- Mount an image, without its copier header if it has one. -/
def mount (point : String) (image : Array Byte) : Action Unit := do
  checkPoint point
  let rom := Card.stripHeader image
  let card ← Card.ofImage rom
  load rom card

/-- Take the card out. -/
def unmount (point : String) : Action Unit := do
  checkPoint point
  modify fun s => { s with machine := none }
  modify fun s => { s with cycles := 0 }

/-- A session that starts with a card. -/
def ofRom (settings : Settings) (rom : Array Byte) (card : Card) : Except Error Session :=
  match (load rom card).run.run (ofSettings settings) with
  | (.ok _, s) => .ok s
  | (.error e, _) => .error e

/-! ### Running -/

/-- Carry out an operation of the machine. -/
def onMachine (op : Machine.Op) : Action Answer := fun s =>
  match s with
  | ⟨settings, some m, cycles⟩ =>
    let (answer, m) := m.step op
    (.ok answer, ⟨settings, some m, cycles⟩)
  | ⟨settings, none, cycles⟩ => (.error .noCard, ⟨settings, none, cycles⟩)

/-- Let processor cycles pass. -/
def tick (cycles : UInt32) : Action Unit := do
  let _ ← onMachine (.tick cycles)
  modify fun s => { s with cycles := s.cycles + cycles.toUInt64 }

/-- Reset the machine, if there is one, and the count of cycles. -/
def reset (s : Session) : Session :=
  { s with machine := s.machine.map Machine.reset, cycles := 0 }

/-! ### Operations -/

/-- Something to do in a session. -/
inductive Op where
  | mount (point : String) (image : Array Byte)
  | unmount (point : String)
  | load (rom : Array Byte) (card : Card)
  | tick (cycles : UInt32)
  | reset
  /-- Act on the machine. -/
  | machine (op : Machine.Op)

/-- What an operation does, and what it answers. -/
def Op.action : Op → Action Answer
  | .mount point image => do
    Session.mount point image
    pure .done
  | .unmount point => do
    Session.unmount point
    pure .done
  | .load rom card => do
    Session.load rom card
    pure .done
  | .tick cycles => do
    Session.tick cycles
    pure .done
  | .reset => do
    modify Session.reset
    pure .done
  | .machine op => onMachine op

/-- Carry out an operation; gives its answer or the reason for its refusal, with
the session after it. -/
def step (s : Session) (op : Op) : Except Error Answer × Session := op.action.run.run s

/-- Carry out operations one after the other, whether or not they are
refused. -/
def run (s : Session) (ops : List Op) : Session :=
  ops.foldl (fun s op => (s.step op).2) s

/-! ### Reports -/

/-- What mounting an image reports. -/
def mountNotices (s : Session) (point : String) (image : Array Byte) : List Notice :=
  let rom := Card.stripHeader image
  match checkPoint point, Card.ofImage rom with
  | .ok _, .ok card => .mounting (rom.size / 1024) :: Machine.powerOnNotices rom card s.settings
  | _, _ => []

/-- What an operation of the machine reports. -/
def machineNotices (s : Session) (op : Machine.Op) : List Notice :=
  match s.machine with
  | some m => m.notices op
  | none => []

/-- What an operation reports. -/
def notices (s : Session) : Op → List Notice
  | .mount point image => s.mountNotices point image
  | .unmount _ => []
  | .load rom card => Machine.powerOnNotices rom card s.settings
  | .tick cycles => s.machineNotices (.tick cycles)
  | .reset => s.machineNotices .reset
  | .machine op => s.machineNotices op

end Session

end PcEngine
