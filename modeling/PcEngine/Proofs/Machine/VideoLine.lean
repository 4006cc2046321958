/-
PcEngine/Proofs/Machine/VideoLine.lean

The interrupt line of the video controller, and the events that it stands for.

The line and the queue of pending events live in different devices and are
changed from different places.  What an operation does to the two together is
one of three things (`Signal`):

* it queues an event, and the line is high after it (`queues` says which event);
* it lowers the line: a reset, a read of the status, or taking the last pending
  event (`Lowers`);
* it leaves the line as it was, and does not empty the queue.

So the line is high exactly if an event has been queued and nothing has lowered
the line since (`videoLine_run`), and while it is high an event is pending.  The
host's operations on one of the two devices alone (`Op.OnBus` excludes them) can
break this.
-/
import PcEngine.Proofs.History
import PcEngine.Proofs.Machine.Carries
import PcEngine.Proofs.Video.Pending

namespace PcEngine

/-! ### Ports of the video controller -/

/-- Whether an address is register `n` of the video controller, in a slot that
shows the hardware page. -/
def IsVideoPort (n : Nat) (addr : Word) : Prop :=
  addr.toNat % bankSize < 1024 ∧ addr.toNat % 4 = n

instance (n : Nat) (addr : Word) : Decidable (IsVideoPort n addr) := by
  unfold IsVideoPort; infer_instance

theorem Target.ofOffset_eq_video_iff {offset n : Nat} :
    ofOffset offset = .video n ↔ offset < 1024 ∧ offset % 4 = n := by
  by_cases h : offset < 1024
  · simp [ofOffset, Nat.div_eq_of_lt h, h]
  · have hdevice : offset / 1024 ≠ 0 := by omega
    unfold ofOffset
    split
    · contradiction
    all_goals simp [h]

theorem isVideoPort_iff {n : Nat} {addr : Word} :
    IsVideoPort n addr ↔ Target.ofOffset (addr.toNat % bankSize) = .video n := by
  have hmod : addr.toNat % bankSize % 4 = addr.toNat % 4 := Nat.mod_mod_of_dvd _ (by decide)
  rw [Target.ofOffset_eq_video_iff, hmod, IsVideoPort]

namespace Machine

variable {m m' : Machine}

/-! ### What operations do to queue and line -/

/-- Whether an operation goes through the bus, and not past it to one device. -/
def Op.OnBus : Op → Prop
  | .video _ | .interrupts _ => False
  | _ => True

/-- The event that an operation queues, if it queues one: an enabled event that
is raised, that of the sprite table's copy, or that of a transfer, which starts
with the high byte of the length register. -/
def queues (m : Machine) : Op → Option Video.Event
  | .raiseEvent e => if m.video.eventEnabled e then some e else none
  | .serviceSprites => if m.video.serviceQueues then some .spriteTransferDone else none
  | .write addr _ =>
    if m.slots.writePage addr = .hardware ∧ IsVideoPort 3 addr ∧ m.video.highQueues then
      some .vramTransferDone
    else none
  | _ => none

/-- Whether an operation lowers the line: a reset, a read of the status port, or
taking an event if none remains. -/
def Lowers (m : Machine) : Op → Prop
  | .reset => True
  | .read addr => m.slots.readPage addr = .hardware ∧ IsVideoPort 0 addr
  | .popEvent => m.popEvent.2.video.pending.isEmpty = true
  | _ => False

/-- What an operation does to the pending events and to the line. -/
inductive Signal (m : Machine) (op : Op) (m' : Machine) : Prop
  | queued (e : Video.Event) (hqueues : m.queues op = some e)
      (hpending : m'.video.pending = m.video.pending.push e)
      (hline : m'.interrupts.isRaised .video = true)
  | lowered (hqueues : m.queues op = none) (hlowers : m.Lowers op)
      (hpending : m'.video.pending.toList <+: m.video.pending.toList)
      (hline : m'.interrupts.isRaised .video = false)
  | kept (hqueues : m.queues op = none) (hlowers : ¬m.Lowers op)
      (hpending : m'.video.pending.toList <+: m.video.pending.toList)
      (hempty : m'.video.pending.isEmpty = true → m.video.pending.isEmpty = true)
      (hline : m'.interrupts.isRaised .video = m.interrupts.isRaised .video)

/-- Nothing happens to either. -/
theorem Signal.quiet {op : Op} (hqueues : m.queues op = none) (hlowers : ¬m.Lowers op)
    (hpending : m'.video.pending = m.video.pending)
    (hline : m'.interrupts.isRaised .video = m.interrupts.isRaised .video) : m.Signal op m' :=
  .kept hqueues hlowers (hpending ▸ List.prefix_refl _) (fun h => hpending ▸ h) hline

/-- Raising the line for an event that has been queued. -/
theorem raiseVideoIf_signal {op : Op} {e : Video.Event} {queued : Bool}
    (hqueues : m.queues op = if queued then some e else none) (hlowers : ¬m.Lowers op)
    (hpending : m'.video.pending =
      if queued then m.video.pending.push e else m.video.pending)
    (hline : m'.interrupts = m.interrupts) : m.Signal op (m'.raiseVideoIf queued) := by
  cases queued with
  | true => exact .queued e hqueues hpending (by simp [raiseVideoIf])
  | false => exact .quiet hqueues hlowers hpending (by simp [raiseVideoIf, hline])

/-! ### Devices -/

theorem readTarget_quiet {t : Target} (h : t ≠ .video 0) :
    (m.readTarget t).2.video.pending = m.video.pending ∧
      (m.readTarget t).2.interrupts = m.interrupts := by
  unfold readTarget
  split
  · contradiction
  case h_3 => exact ⟨m.video.pending_readHigh m.store.vram, rfl⟩
  all_goals exact ⟨rfl, rfl⟩

theorem writeTarget_quiet {t : Target} (h : t ≠ .video 3) (value : Byte) :
    (m.writeTarget value t).video.pending = m.video.pending ∧
      (m.writeTarget value t).interrupts.isRaised .video = m.interrupts.isRaised .video := by
  unfold writeTarget
  split
  case h_3 => contradiction
  case h_14 => exact ⟨rfl, by simp⟩
  all_goals exact ⟨rfl, rfl⟩

/-! ### Operations -/

theorem read_signal (m : Machine) (addr : Word) : m.Signal (.read addr) (m.read addr).2 := by
  rcases hpage : m.slots.readPage addr with ⟨region, base, span⟩ | -
  · have hlowers : ¬m.Lowers (.read addr) := fun h => by cases hpage.symm.trans h.1
    simp only [read, hpage]
    exact .quiet rfl hlowers rfl rfl
  · simp only [read, hpage, readHardware]
    by_cases hport : IsVideoPort 0 addr
    · -- the status
      rw [isVideoPort_iff.mp hport]
      exact .lowered rfl ⟨hpage, hport⟩ (List.prefix_refl _) (by simp [readTarget])
    · have htarget := mt isVideoPort_iff.mpr hport
      obtain ⟨hpending, hline⟩ := readTarget_quiet (m := m) htarget
      exact .quiet rfl (fun h => hport h.2) hpending (congrArg (·.isRaised .video) hline)

theorem write_signal (m : Machine) (addr : Word) (value : Byte) :
    m.Signal (.write addr value) (m.write addr value) := by
  rcases hpage : m.slots.writePage addr with ⟨region, base, span⟩ | -
  · have hqueues : m.queues (.write addr value) = none := if_neg fun h => by
      cases hpage.symm.trans h.1
    simp only [write, hpage]
    refine .quiet hqueues id ?_ ?_ <;> split <;> simp only [selectRomPage]
  · simp only [write, hpage, writeHardware]
    by_cases hport : IsVideoPort 3 addr
    · -- the high data byte
      have hqueues : m.queues (.write addr value) =
          if m.video.highQueues then some .vramTransferDone else none := by
        simp only [queues, hpage, hport, true_and]
      rw [isVideoPort_iff.mp hport]
      simp only [writeTarget, Video.Controller.writeHigh_fst]
      exact raiseVideoIf_signal hqueues id (m.video.pending_writeHigh value m.store.vram) rfl
    · have hqueues : m.queues (.write addr value) = none := if_neg fun h => hport h.2.1
      have htarget := mt isVideoPort_iff.mpr hport
      obtain ⟨hpending, hline⟩ :=
        writeTarget_quiet (m := { m with latch := value }) htarget value
      exact .quiet hqueues id hpending hline

theorem pending_popEvent (m : Machine) :
    m.popEvent.2.video.pending = m.video.pending.pop.2 := by
  unfold popEvent
  dsimp only
  split <;> rfl

theorem interrupts_popEvent (m : Machine) :
    m.popEvent.2.interrupts =
      if m.video.pending.pop.2.isEmpty then m.interrupts.clear .video else m.interrupts := by
  by_cases h : m.video.pending.pop.2.isEmpty = true <;>
    simp only [popEvent, Video.Controller.popEvent, h, if_true, Bool.false_eq_true, if_false]

theorem popEvent_signal (m : Machine) : m.Signal .popEvent m.popEvent.2 := by
  have hprefix : m.popEvent.2.video.pending.toList <+: m.video.pending.toList := by
    rw [pending_popEvent]
    exact m.video.pending.toList_pop_prefix
  have hline := m.interrupts_popEvent
  rw [← pending_popEvent] at hline
  by_cases hempty : m.popEvent.2.video.pending.isEmpty = true
  · refine .lowered rfl hempty hprefix ?_
    rw [hline, if_pos hempty]
    simp
  · refine .kept rfl hempty hprefix (fun h => absurd h hempty) ?_
    rw [hline, if_neg hempty]

theorem tick_signal (m : Machine) (cycles : UInt32) :
    m.Signal (.tick cycles) (m.tick cycles.toNat) := by
  refine .quiet rfl id ?_ ?_ <;> unfold tick <;> dsimp only <;> split <;> simp

/-- **What every operation on the bus does to the two.** -/
theorem step_signal (m : Machine) {op : Op} (h : op.OnBus) : m.Signal op (m.step op).2 := by
  cases op with
  | read addr => exact m.read_signal addr
  | write addr value => exact m.write_signal addr value
  | tick cycles => exact m.tick_signal cycles
  | reset => exact .lowered rfl trivial List.nil_prefix (Interrupt.Lines.isRaised_powerOn .video)
  | raiseEvent e =>
    show m.Signal (.raiseEvent e) (m.raiseEvent e).2
    simp only [raiseEvent, Video.Controller.raise_fst]
    exact raiseVideoIf_signal rfl id (m.video.pending_raise e) rfl
  | serviceSprites =>
    show m.Signal .serviceSprites m.serviceSprites.2
    simp only [serviceSprites, Video.Controller.serviceSprites_fst]
    exact raiseVideoIf_signal rfl id (m.video.pending_serviceSprites m.store.vram) rfl
  | popEvent => exact m.popEvent_signal
  | video op => exact h.elim
  | interrupts op => exact h.elim
  | readWord addr | writeWord addr value | selectBank slot bank | nextSample channel
  | clockSamples channel clocks | setPad n pressed | restoreBackup data =>
    exact .quiet rfl id rfl rfl

/-! ### Runs -/

/-- The line after an operation: high if the operation queued an event, or if it
was high and the operation did not lower it. -/
theorem isRaised_step {op : Op} (h : op.OnBus) :
    (m.step op).2.interrupts.isRaised .video = true ↔
      (m.queues op).isSome ∨ m.interrupts.isRaised .video = true ∧ ¬m.Lowers op := by
  have hsignal := m.step_signal h
  generalize (m.step op).2 = m' at hsignal
  cases hsignal with
  | queued e hqueues _ hline => simp [hqueues, hline]
  | lowered hqueues hlowers _ hline => simp [hqueues, hlowers, hline]
  | kept hqueues hlowers _ _ hline => simp [hqueues, hlowers, hline]

/-- A high line stands for an event that is pending. -/
def LineMeansEvent (m : Machine) : Prop :=
  m.interrupts.isRaised .video = true → m.video.pending.isEmpty = false

theorem lineMeansEvent_step (hm : m.LineMeansEvent) {op : Op} (h : op.OnBus) :
    (m.step op).2.LineMeansEvent := by
  have hsignal := m.step_signal h
  generalize (m.step op).2 = m' at hsignal
  intro hraised
  cases hsignal with
  | queued e _ hpending _ => rw [hpending, Video.EventQueue.isEmpty_push]
  | lowered _ _ _ hline => exact absurd (hline.symm.trans hraised) Bool.false_ne_true
  | kept _ _ _ hempty hline =>
    have hbefore := hm (hline ▸ hraised)
    rw [← Bool.not_eq_true] at hbefore ⊢
    exact mt hempty hbefore

theorem lineMeansEvent_run (hm : m.LineMeansEvent) {ops : List Op} (h : ∀ op ∈ ops, op.OnBus) :
    (m.run ops).LineMeansEvent := by
  induction ops generalizing m with
  | nil => exact hm
  | cons op ops ih =>
    refine ih (lineMeansEvent_step hm (h op List.mem_cons_self)) ?_
    exact fun o ho => h o (List.mem_cons_of_mem op ho)

/-- Along a run, an event was queued and nothing has lowered the line since. -/
def QueuedSince (start : Machine) (ops : List Op) : Prop :=
  Since (fun m op => (m.step op).2) (fun m op => (m.queues op).isSome = true) Lowers start ops

theorem isRaised_run_iff (hlow : m.interrupts.isRaised .video = false) {ops : List Op}
    (h : ∀ op ∈ ops, op.OnBus) :
    (m.run ops).interrupts.isRaised .video = true ↔ m.QueuedSince ops := by
  refine iff_since (fun ops => (m.run ops).interrupts.isRaised .video = true) Op.OnBus ?_ ?_ ops h
  · rw [run_nil, hlow]
    exact Bool.false_ne_true
  · intro ops op hop
    rw [run_concat]
    exact isRaised_step hop

/-- What the line says about a run.

* `since` — it is high exactly if an event was queued and nothing has lowered it
  since;
* `pending` — while it is high, an event is pending;
* `entry` — an event enters the queue in no other way than `queues` says, and
  never without the line being high right after it. -/
structure LineTells (start : Machine) (ops : List Op) : Prop where
  since : (start.run ops).interrupts.isRaised .video = true ↔ start.QueuedSince ops
  pending : (start.run ops).interrupts.isRaised .video = true →
    (start.run ops).video.pending.isEmpty = false
  entry : ∀ op : Op, op.OnBus →
    let m := start.run ops
    let after := (m.step op).2
    (∃ e, m.queues op = some e ∧ after.video.pending = m.video.pending.push e ∧
      after.interrupts.isRaised .video = true) ∨
    (m.queues op = none ∧ after.video.pending.toList <+: m.video.pending.toList)

variable {start : Machine} {rom : Array Byte} {card : Card} {settings : Settings}

/-- **The line of the video controller tells of queued events**, after every run
of operations on the bus. -/
theorem videoLine_run (h : powerOn rom card settings = .ok start) {ops : List Op}
    (hbus : ∀ op ∈ ops, op.OnBus) : start.LineTells ops := by
  obtain ⟨-, rfl⟩ := powerOn_eq_ok_iff.mp h
  have hlow : (boot rom card settings).interrupts.isRaised .video = false :=
    Interrupt.Lines.isRaised_powerOn .video
  refine ⟨isRaised_run_iff hlow hbus, ?_, ?_⟩
  · refine lineMeansEvent_run (fun hraised => ?_) hbus
    exact absurd (hlow.symm.trans hraised) Bool.false_ne_true
  · intro op hop m after
    have hsignal : m.Signal op after := m.step_signal hop
    cases hsignal with
    | queued e hqueues hpending hline => exact .inl ⟨e, hqueues, hpending, hline⟩
    | lowered hqueues _ hpending _ => exact .inr ⟨hqueues, hpending⟩
    | kept hqueues _ hpending _ _ => exact .inr ⟨hqueues, hpending⟩

/-- A vertical blank with its event enabled, a read of the status, and another
one. -/
def blankTwice : List Op :=
  [.write 0x0000 0x05, .write 0x0002 0x08, .raiseEvent .verticalBlank, .read 0x0000,
    .raiseEvent .verticalBlank]

theorem videoLine_blankTwice :
    let start := boot largeImage largeCard .standard
    powerOn largeImage largeCard .standard = .ok start ∧ (∀ op ∈ blankTwice, op.OnBus) ∧
      start.LineTells blankTwice := by
  have hbus : ∀ op ∈ blankTwice, op.OnBus := by simp [blankTwice, Op.OnBus]
  exact ⟨powerOn_largeCard, hbus, videoLine_run powerOn_largeCard hbus⟩

end Machine

end PcEngine
