/-
PcEngine/Proofs/Video/StatusLatch.lean

What the status latch of the video controller tells, and what it has no part in.

An event is raised by the renderer, by a transfer, or by a copy of the sprite table
(`Raises`).  It sets its bit of the latch, whether it is enabled or not, and goes into
the queue if it is enabled.  Reading the latch clears it, with the bit that says whether
a transfer is going on.

What an operation does to latch and queue is one of six things (`LatchStep`).  So the
bits are histories: an event's bit is set exactly if the event has been raised since the
latch was cleared (`raisedSince_iff`), and the other bit is the last one set since then
(`lastBusy_iff`).  The queue is not told by the latch: nothing but the answer to a read
depends on it, so the operations that only act on the latch can be left out of a run
(`run_filter_onLatch`).

Main result: `reportsEvents_run`, for every run from power-on.
-/
import PcEngine.Proofs.Video.SpriteTable
import PcEngine.Proofs.Video.Upload

namespace PcEngine.Video

/-! ### Bits of the latch -/

namespace Event

theorem toNat_statusBit (e : Event) : e.statusBit.toNat = Nat.pow 2 e.code := by
  cases e <;> rfl

theorem code_lt (e : Event) : e.code < 6 := by
  cases e <;> decide

theorem code_eq_iff {e e' : Event} : e.code = e'.code ↔ e = e' := by
  cases e <;> cases e' <;> decide

end Event

theorem testBit_or_statusBit (b : Byte) (e : Event) (i : Nat) :
    (b ||| e.statusBit).toNat.testBit i = (b.toNat.testBit i || decide (e.code = i)) := by
  rw [UInt8.toNat_or, Nat.testBit_or, Event.toNat_statusBit]
  exact congrArg (b.toNat.testBit i || ·) Nat.testBit_two_pow

namespace Controller

variable {c c' : Controller} {op : Op} {e e' : Event} {i : Nat}

theorem testBit_setBusy (c : Controller) (busy : Bool) (hi : i < 8) :
    (c.setBusy busy).status.toNat.testBit i =
      if i = 6 then busy else c.status.toNat.testBit i := by
  have hset : ∀ i < 8, busyBit.toNat.testBit i = decide (i = 6) := by decide
  have hclear : ∀ i < 8, (~~~busyBit).toNat.testBit i = !decide (i = 6) := by decide
  rcases busy with - | -
  · show (c.status &&& ~~~busyBit).toNat.testBit i = _
    rw [UInt8.toNat_and, Nat.testBit_and, hclear i hi]
    by_cases h : i = 6 <;> simp [h]
  · show (c.status ||| busyBit).toNat.testBit i = _
    rw [UInt8.toNat_or, Nat.testBit_or, hset i hi]
    by_cases h : i = 6 <;> simp [h]

/-! ### What operations do to latch and queue -/

/-- Whether an operation raises an event: directly, by the transfer that the high byte
of the length register starts, or by a copy of the sprite table. -/
def Raises (e : Event) (c : Controller) : Op → Prop
  | .raise raised => raised = e
  | .writeHigh _ _ => c.selected = Register.transferLength ∧ e = .vramTransferDone
  | .serviceSprites _ => c.Transfers ∧ e = .spriteTransferDone
  | _ => False

/-- Whether an operation clears the latch: it is a read of the latch, or a reset. -/
def Clears : Op → Prop
  | .readStatus | .reset => True
  | _ => False

/-- An operation raises one event at most. -/
theorem Raises.eq (h : Raises e c op) (h' : Raises e' c op) : e = e' := by
  cases op with
  | raise raised => exact h.symm.trans h'
  | writeHigh value vram => exact h.2.trans h'.2.symm
  | serviceSprites vram => exact h.2.trans h'.2.symm
  | _ => exact h.elim

/-- An operation that raises an event clears nothing. -/
theorem Raises.not_clears (h : Raises e c op) : ¬Clears op := by
  cases op with
  | readStatus | reset => exact h.elim
  | _ => exact id

/-- What an operation does to the latch and to the pending events. -/
inductive LatchStep (c : Controller) (op : Op) (c' : Controller) : Prop
  | raised (e : Event) (hraises : Raises e c op)
      (hstatus : c'.status = c.status ||| e.statusBit)
      (hpending : c'.pending = if c.eventEnabled e then c.pending.push e else c.pending)
  | busy (b : Bool) (hop : op = .setBusy b) (hstatus : c'.status = (c.setBusy b).status)
      (hpending : c'.pending = c.pending)
  | read (hop : op = .readStatus) (hstatus : c'.status = 0) (hpending : c'.pending = c.pending)
  | reset (hop : op = .reset) (hstatus : c'.status = 0) (hpending : c'.pending = .empty)
  | popped (hop : op = .popEvent) (hstatus : c'.status = c.status)
      (hpending : c'.pending = c.pending.pop.2)
  | kept (hraises : ∀ e, ¬Raises e c op) (hclears : ¬Clears op) (hbusy : ∀ b, op ≠ .setBusy b)
      (hstatus : c'.status = c.status) (hpending : c'.pending = c.pending)

theorem raise_latchStep (c : Controller) (e : Event) : c.LatchStep (.raise e) (c.raise e).2 := by
  rw [raise_snd]
  exact .raised e rfl rfl rfl

theorem status_writeHigh_of_ne (h : c.selected ≠ Register.transferLength) (value : Byte)
    (vram : Vram) : (c.writeHigh value vram).2.1.status = c.status := by
  unfold writeHigh
  dsimp only
  split
  · rfl
  · split
    · exact absurd ‹_› h
    · split <;> rfl

theorem writeHigh_latchStep (c : Controller) (value : Byte) (vram : Vram) :
    c.LatchStep (.writeHigh value vram) (c.writeHigh value vram).2.1 := by
  by_cases h : c.selected = Register.transferLength
  · refine .raised .vramTransferDone ⟨h, rfl⟩ ?_ ?_
    · rw [writeHigh_of_transferLength c h, status_transfer]
      rfl
    · rw [pending_writeHigh, highQueues_of_transferLength c h]
  · obtain ⟨-, hpending⟩ := writeHigh_of_ne c h value vram
    exact .kept (fun e hraises => h hraises.1) id (by simp) (status_writeHigh_of_ne h value vram)
      hpending

theorem serviceSprites_latchStep (c : Controller) (vram : Vram) :
    c.LatchStep (.serviceSprites vram) (c.serviceSprites vram).2 := by
  by_cases h : c.Transfers
  · rw [serviceSprites_of_transfers h]
    exact .raised .spriteTransferDone ⟨h, rfl⟩ rfl rfl
  · rw [serviceSprites_of_not_transfers h]
    exact .kept (fun e hraises => h hraises.1) id (by simp) rfl rfl

theorem readHigh_latchStep (c : Controller) (vram : Vram) :
    c.LatchStep (.readHigh vram) (c.readHigh vram).2 := by
  refine .kept (fun _ => id) id (by simp) ?_ (c.pending_readHigh vram)
  unfold readHigh
  split <;> rfl

/-- **What every operation does to latch and queue.** -/
theorem step_latchStep (c : Controller) (op : Op) : c.LatchStep op (c.step op).2 := by
  cases op with
  | raise e => exact c.raise_latchStep e
  | writeHigh value vram => exact c.writeHigh_latchStep value vram
  | serviceSprites vram => exact c.serviceSprites_latchStep vram
  | readHigh vram => exact c.readHigh_latchStep vram
  | setBusy busy => exact .busy busy rfl rfl rfl
  | readStatus => exact .read rfl rfl rfl
  | reset => exact .reset rfl rfl rfl
  | popEvent => exact .popped rfl rfl rfl
  | select value | writeLow value | takeModeChange => exact .kept (fun _ => id) id (by simp) rfl rfl

/-! ### The bits are histories -/

/-- Along a run from power-on, an event has been raised, and the latch has not been
cleared since. -/
def RaisedSince (ops : List Op) (e : Event) : Prop :=
  Since (fun c op => (c.step op).2) (Raises e) (fun _ => Clears) powerOn ops

/-- What was said last, in a run from power-on, about a transfer going on; that there is
none, if nothing has been said since the latch was cleared. -/
def LastBusy (ops : List Op) (b : Bool) : Prop :=
  Latest (fun c op => (c.step op).2) (fun b _ op => op = .setBusy b) (fun _ => Clears) false
    powerOn ops b

/-- An event's bit after an operation. -/
theorem testBit_step (c : Controller) (op : Op) (e : Event) :
    (c.step op).2.status.toNat.testBit e.code = true ↔
      Raises e c op ∨ c.status.toNat.testBit e.code = true ∧ ¬Clears op := by
  have hstep := c.step_latchStep op
  generalize (c.step op).2 = c' at hstep
  have hbit : e.code < 8 := Nat.lt_trans e.code_lt (by decide)
  have hbusy : e.code ≠ 6 := Nat.ne_of_lt e.code_lt
  cases hstep with
  | raised raised hraises hstatus =>
    have hsame : raised.code = e.code ↔ Raises e c op := by
      rw [Event.code_eq_iff]
      exact ⟨fun h => h ▸ hraises, hraises.eq⟩
    rw [hstatus, testBit_or_statusBit, Bool.or_eq_true, decide_eq_true_iff, hsame]
    simp only [hraises.not_clears, not_false_eq_true, and_true, or_comm]
  | busy b hop hstatus =>
    rw [hstatus, testBit_setBusy c b hbit, if_neg hbusy, hop]
    simp [Raises, Clears]
  | read hop hstatus | reset hop hstatus => simp [hop, hstatus, Raises, Clears]
  | popped hop hstatus => simp [hop, hstatus, Raises, Clears]
  | kept hraises hclears _ hstatus => simp [hraises e, hclears, hstatus]

/-- **An event's bit is set exactly if the event has been raised since the latch was
cleared.** -/
theorem raisedSince_iff (ops : List Op) (e : Event) :
    (powerOn.run ops).status.toNat.testBit e.code = true ↔ RaisedSince ops e := by
  refine iff_since (fun ops => (powerOn.run ops).status.toNat.testBit e.code = true)
    (fun _ => True) ?_ ?_ ops fun _ _ => trivial
  · show ¬(0 : Nat).testBit e.code = true
    rw [Nat.zero_testBit]
    exact Bool.false_ne_true
  · intro ops op _
    rw [run_concat]
    exact testBit_step _ op e

theorem status_step_of_clears (h : Clears op) : (c.step op).2.status = 0 := by
  cases op with
  | readStatus | reset => rfl
  | _ => exact h.elim

/-- Events have no part in the bits behind theirs. -/
theorem testBit_step_of_le (hi : 6 ≤ i) (hbit : i < 8) (hclears : ¬Clears op)
    (hbusy : i = 6 → ∀ b, op ≠ .setBusy b) :
    (c.step op).2.status.toNat.testBit i = c.status.toNat.testBit i := by
  have hstep := c.step_latchStep op
  generalize (c.step op).2 = c' at hstep
  cases hstep with
  | raised e _ hstatus =>
    have hcode : e.code ≠ i := Nat.ne_of_lt (Nat.lt_of_lt_of_le e.code_lt hi)
    rw [hstatus, testBit_or_statusBit, decide_eq_false hcode, Bool.or_false]
  | busy b hop hstatus =>
    have hother : i ≠ 6 := fun h => hbusy h b hop
    rw [hstatus, testBit_setBusy c b hbit, if_neg hother]
  | read hop | reset hop => exact absurd (hop ▸ trivial) hclears
  | popped _ hstatus | kept _ _ _ hstatus => rw [hstatus]

/-- Bit 6 of the latch. -/
def isBusy (c : Controller) : Bool := c.status.toNat.testBit 6

/-- **Bit 6 is what was said last about a transfer going on.** -/
theorem lastBusy_iff (ops : List Op) (b : Bool) :
    LastBusy ops b ↔ (powerOn.run ops).isBusy = b := by
  have hstart : isBusy powerOn = false := rfl
  refine latest_iff ?_ ?_ ?_ hstart ops b
  · rintro c op b rfl
    exact testBit_setBusy c b (by decide)
  · intro c op hclears _
    rw [isBusy, status_step_of_clears hclears]
    rfl
  · intro c op hends
    have hclears : ¬Clears op := fun h => hends (.inl h)
    refine testBit_step_of_le (Nat.le_refl 6) (by decide) hclears fun _ b hop => ?_
    exact hends (.inr ⟨b, hop⟩)

theorem testBit_seven (ops : List Op) : (powerOn.run ops).status.toNat.testBit 7 = false := by
  -- the induction is from the end, as the latch is told by the last operation
  induction ops using List.reverseRecOn with
  | nil => rfl
  | append_singleton ops op ih =>
    rw [run_concat]
    by_cases hclears : Clears op
    · rw [status_step_of_clears hclears]
      rfl
    · have hother : 7 = 6 → ∀ b, op ≠ .setBusy b := fun h => absurd h (by decide)
      rw [testBit_step_of_le (by decide) (by decide) hclears hother]
      exact ih

/-! ### The queue -/

theorem pending_step_of_raises (h : Raises e c op) :
    (c.step op).2.pending = if c.eventEnabled e then c.pending.push e else c.pending := by
  have hstep := c.step_latchStep op
  generalize (c.step op).2 = c' at hstep
  cases hstep with
  | raised raised hraises _ hpending =>
    obtain rfl := hraises.eq h
    exact hpending
  | busy _ hop | read hop | reset hop | popped hop =>
    subst hop
    exact h.elim
  | kept hraises => exact absurd h (hraises e)

/-- Nothing enters the queue if no event is raised. -/
theorem pending_step_of_not_raises (h : ∀ e, ¬Raises e c op) :
    (c.step op).2.pending.toList <+: c.pending.toList := by
  have hstep := c.step_latchStep op
  generalize (c.step op).2 = c' at hstep
  cases hstep with
  | raised e hraises => exact absurd hraises (h e)
  | reset _ _ hpending =>
    rw [hpending]
    exact List.nil_prefix
  | popped _ _ hpending =>
    rw [hpending]
    exact c.pending.toList_pop_prefix
  | busy _ _ _ hpending | read _ _ hpending | kept _ _ _ _ hpending =>
    exact hpending ▸ List.prefix_refl _

/-! ### Nothing depends on the latch -/

/-- The controller with something else in the latch. -/
def withStatus (c : Controller) (s : Byte) : Controller := { c with status := s }

/-- Whether an operation acts on the latch only. -/
def onLatch : Op → Bool
  | .readStatus | .setBusy _ => true
  | _ => false

section

variable (c : Controller) (s : Byte)

@[simp] theorem selected_withStatus : (c.withStatus s).selected = c.selected := rfl

@[simp] theorem register_withStatus (n : Nat) : (c.withStatus s).register n = c.register n := rfl

@[simp] theorem setRegister_withStatus (n : Nat) (w : Word) :
    (c.withStatus s).setRegister n w = (c.setRegister n w).withStatus s := rfl

theorem raise_withStatus (e : Event) :
    ((c.withStatus s).raise e).2 = (c.raise e).2.withStatus (s ||| e.statusBit) := by
  rw [raise_snd, raise_snd]
  rfl

theorem transfer_withStatus (vram : Vram) :
    ((c.withStatus s).transfer vram).2.1 =
      (c.transfer vram).2.1.withStatus (s ||| Event.vramTransferDone.statusBit) := by
  simp only [transfer, register_withStatus, setRegister_withStatus, raise_withStatus]
  rfl

theorem writeHigh_withStatus (value : Byte) (vram : Vram) :
    ∃ t, ((c.withStatus s).writeHigh value vram).2.1 =
      (c.writeHigh value vram).2.1.withStatus t := by
  have hselected : ∀ d : Controller, d.selected = c.selected →
      ∀ w, (d.setRegister d.selected w).selected = c.selected := fun _ h _ => h
  have hleft := hselected (c.withStatus s) rfl
  have hright := hselected c rfl
  by_cases hlength : c.selected = Register.transferLength
  · rw [writeHigh_of_transferLength c hlength, writeHigh_of_transferLength (c.withStatus s) hlength,
      selected_withStatus, register_withStatus, setRegister_withStatus]
    exact ⟨_, transfer_withStatus _ s vram⟩
  · refine ⟨s, ?_⟩
    by_cases hdata : c.selected = Register.data
    · simp only [writeHigh, hleft, hright, if_pos hdata]
      rfl
    · by_cases htable : c.selected = Register.spriteTable
      · simp only [writeHigh, hleft, hright, if_neg hdata, if_neg hlength, if_pos htable]
        rfl
      · simp only [writeHigh, hleft, hright, if_neg hdata, if_neg hlength, if_neg htable]
        rfl

theorem readHigh_withStatus (vram : Vram) :
    ((c.withStatus s).readHigh vram).2 = (c.readHigh vram).2.withStatus s := by
  by_cases h : c.selected = Register.data
  · rw [readHigh_of_data h, readHigh_of_data (c := c.withStatus s) h]
    rfl
  · have hother : ∀ d : Controller, d.selected ≠ Register.data → (d.readHigh vram).2 = d :=
      fun d hd => by rw [readHigh, if_neg hd]
    rw [hother c h, hother (c.withStatus s) h]

theorem serviceSprites_withStatus (vram : Vram) :
    ∃ t, ((c.withStatus s).serviceSprites vram).2 = (c.serviceSprites vram).2.withStatus t := by
  have hsame : (c.withStatus s).Transfers ↔ c.Transfers := by
    rw [transfers_iff, transfers_iff]
    rfl
  by_cases h : c.Transfers
  · rw [serviceSprites_of_transfers h, serviceSprites_of_transfers (hsame.mpr h)]
    exact ⟨s ||| Event.spriteTransferDone.statusBit, rfl⟩
  · rw [serviceSprites_of_not_transfers h, serviceSprites_of_not_transfers (mt hsame.mp h)]
    exact ⟨s, rfl⟩

/-- An operation does the same, the latch apart, whatever is in the latch. -/
theorem step_withStatus (op : Op) :
    ∃ t, ((c.withStatus s).step op).2 = (c.step op).2.withStatus t := by
  cases op with
  | writeHigh value vram => exact c.writeHigh_withStatus s value vram
  | raise e => exact ⟨_, c.raise_withStatus s e⟩
  | serviceSprites vram => exact c.serviceSprites_withStatus s vram
  | readHigh vram => exact ⟨s, c.readHigh_withStatus s vram⟩
  | readStatus | reset => exact ⟨0, rfl⟩
  | setBusy busy => exact ⟨_, rfl⟩
  | select value | writeLow value | popEvent | takeModeChange => exact ⟨s, rfl⟩

end

theorem step_of_onLatch (h : onLatch op = true) :
    ∃ t, (c.step op).2 = c.withStatus t := by
  cases op with
  | readStatus => exact ⟨0, rfl⟩
  | setBusy busy => exact ⟨_, rfl⟩
  | _ => cases h

/-- A run does the same, the latch apart, if everything that only acts on the latch is
left out of it. -/
theorem run_filter_onLatch (c : Controller) (ops : List Op) :
    ∃ t, c.run (ops.filter fun op => !onLatch op) = (c.run ops).withStatus t := by
  induction ops using List.reverseRecOn with
  | nil => exact ⟨c.status, rfl⟩
  | append_singleton ops op ih =>
    obtain ⟨s, hbefore⟩ := ih
    rw [List.filter_append, run_concat]
    rcases hop : onLatch op with - | -
    · -- the last operation is carried out in both
      rw [List.filter_cons_of_pos (by simp [hop]), List.filter_nil, run_concat, hbefore]
      exact (c.run ops).step_withStatus s op
    · obtain ⟨t, hlast⟩ := step_of_onLatch (c := c.run ops) hop
      rw [List.filter_cons_of_neg (by simp [hop]), List.filter_nil, List.append_nil, hbefore,
        hlast]
      exact ⟨s, rfl⟩

/-! ### Every event once -/

/-- What latch and queue tell after a run from power-on.

* `event` — a read of the latch gives bits 0 to 5 as the events that have been raised since
  it was last cleared;
* `busy` — bit 6 as what was said last about a transfer going on, since then;
* `top` — and bit 7 as zero;
* `queued` — an event that is raised next goes into the queue if it is enabled, and leaves
  the queue alone if it is not;
* `unqueued` — if no event is raised next, none goes into the queue;
* `apart` — queue and enable bits do not depend on what is in the latch: they would be
  the same if the latch had been left alone. -/
structure ReportsEvents (ops : List Op) : Prop where
  event : ∀ e, (powerOn.run ops).readStatus.1.toNat.testBit e.code = true ↔ RaisedSince ops e
  busy : ∀ b, LastBusy ops b ↔ (powerOn.run ops).readStatus.1.toNat.testBit 6 = b
  top : (powerOn.run ops).readStatus.1.toNat.testBit 7 = false
  queued : ∀ op e, Raises e (powerOn.run ops) op →
    (powerOn.run (ops ++ [op])).pending =
      if (powerOn.run ops).eventEnabled e then (powerOn.run ops).pending.push e
      else (powerOn.run ops).pending
  unqueued : ∀ op, (∀ e, ¬Raises e (powerOn.run ops) op) →
    (powerOn.run (ops ++ [op])).pending.toList <+: (powerOn.run ops).pending.toList
  apart : ∃ t, powerOn.run (ops.filter fun op => !onLatch op) = (powerOn.run ops).withStatus t

/-- **The latch reports every event once, and the queue takes the enabled ones**, after
every run from power-on. -/
theorem reportsEvents_run (ops : List Op) : ReportsEvents ops := by
  refine ⟨raisedSince_iff ops, lastBusy_iff ops, testBit_seven ops, fun op e h => ?_,
    fun op h => ?_, run_filter_onLatch powerOn ops⟩
  · rw [run_concat]
    exact pending_step_of_raises h
  · rw [run_concat]
    exact pending_step_of_not_raises h

end Controller

end PcEngine.Video
