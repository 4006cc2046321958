/-
PcEngine/Proofs/Video/Pending.lean

When an operation of the video controller queues an event.

An event is queued if its enable bit is set when it is raised.  Two operations
raise an event of their own: the high byte of the length register starts a
transfer, and the hook at the vertical blank copies the sprite table.  Whether
they queue it can be told before the operation, because what they do on the way
to raising it touches no enable bit (`eventEnabled_setRegister`):

* `highQueues` — of a high byte (`writeHigh_fst`, `pending_writeHigh`);
* `serviceQueues` — of the hook (`serviceSprites_fst`, `pending_serviceSprites`).

Everything else leaves the queue alone, or takes its newest event.
-/
import PcEngine.Video.Controller

namespace PcEngine.Video

/-! ### The queue -/

namespace EventQueue

variable (q : EventQueue)

/-- Adding an event never leaves the queue empty, even if one is lost. -/
@[simp] theorem isEmpty_push (e : Event) : (q.push e).isEmpty = false := by
  simp [push, isEmpty]

/-- Taking an event leaves the older ones. -/
theorem toList_pop_prefix : q.pop.2.toList <+: q.toList :=
  List.take_prefix_take_left (Nat.sub_le q.count 1)

end EventQueue

namespace Controller

variable (c : Controller)

/-! ### Registers -/

theorem register_setRegister (a b : Nat) (w : Word) :
    (c.setRegister a w).register b = if index b = index a then w else c.register b := by
  simp only [register, setRegister, Fin.getElem_fin, Vector.getElem_set]
  by_cases h : index b = index a
  · simp [h]
  · have hne : (index a).val ≠ (index b).val := fun e => h (Fin.ext e.symm)
    simp [h, hne]

theorem addressStep_ne_zero : c.addressStep ≠ 0 := by
  have hsteps : ∀ i, addressSteps.get i ≠ 0 := by decide
  exact hsteps _

/-- The enable bits are in the two control registers. -/
theorem eventEnabled_setRegister {n : Nat} (hcontrol : index Register.control ≠ index n)
    (htransfer : index Register.transferControl ≠ index n) (w : Word) (e : Event) :
    (c.setRegister n w).eventEnabled e = c.eventEnabled e := by
  cases e <;> simp only [eventEnabled, register_setRegister, if_neg hcontrol, if_neg htransfer]

@[simp] theorem pending_setRegister (n : Nat) (w : Word) :
    (c.setRegister n w).pending = c.pending := rfl

@[simp] theorem pending_readHigh (vram : Vram) : (c.readHigh vram).2.pending = c.pending := by
  unfold readHigh
  split <;> rfl

/-! ### Raising an event -/

@[simp] theorem raise_fst (e : Event) : (c.raise e).1 = c.eventEnabled e := by
  rcases henabled : c.eventEnabled e with - | - <;> simp [raise, henabled]

@[simp] theorem pending_raise (e : Event) :
    (c.raise e).2.pending = if c.eventEnabled e then c.pending.push e else c.pending := by
  unfold raise
  dsimp only
  split <;> rfl

/-- Raising an event touches nothing but the status latch and the queue. -/
theorem raise_snd (e : Event) :
    (c.raise e).2 = { c with
      status := c.status ||| e.statusBit
      pending := if c.eventEnabled e then c.pending.push e else c.pending } := by
  unfold raise
  dsimp only
  split <;> rfl

/-! ### Transfers -/

theorem transfer_fst (vram : Vram) : (c.transfer vram).1 = c.eventEnabled .vramTransferDone := by
  simp only [transfer, raise_fst]
  rw [eventEnabled_setRegister _ (by decide) (by decide),
    eventEnabled_setRegister _ (by decide) (by decide)]

theorem pending_transfer (vram : Vram) :
    (c.transfer vram).2.1.pending =
      if c.eventEnabled .vramTransferDone then c.pending.push .vramTransferDone
      else c.pending := by
  simp only [transfer, pending_raise, pending_setRegister]
  rw [eventEnabled_setRegister _ (by decide) (by decide),
    eventEnabled_setRegister _ (by decide) (by decide)]

/-- Whether the hook at the vertical blank queues an event: it copies the sprite
table, and the event of that is enabled. -/
def serviceQueues : Bool :=
  (c.spritesPending || Word.bit (c.register Register.transferControl) 4) &&
    c.eventEnabled .spriteTransferDone

theorem serviceSprites_fst (vram : Vram) : (c.serviceSprites vram).1 = c.serviceQueues := by
  unfold serviceSprites serviceQueues
  split
  · rename_i hdue
    rw [hdue, Bool.true_and, raise_fst]
    rfl
  · rename_i hdue
    rw [Bool.not_eq_true] at hdue
    rw [hdue, Bool.false_and]

theorem pending_serviceSprites (vram : Vram) :
    (c.serviceSprites vram).2.pending =
      if c.serviceQueues then c.pending.push .spriteTransferDone else c.pending := by
  unfold serviceSprites serviceQueues
  split
  · rename_i hdue
    rw [hdue, Bool.true_and, pending_raise]
    rfl
  · rename_i hdue
    rw [Bool.not_eq_true] at hdue
    rw [hdue, Bool.false_and]
    rfl

/-! ### High bytes -/

theorem writeHigh_of_transferLength (h : c.selected = Register.transferLength) (value : Byte)
    (vram : Vram) :
    c.writeHigh value vram =
      (c.setRegister c.selected (Word.setHigh (c.register c.selected) value)).transfer vram := by
  have hdata : ¬Register.transferLength = Register.data := by decide
  have hselected : ∀ w, (c.setRegister c.selected w).selected = Register.transferLength :=
    fun _ => h
  simp only [writeHigh, hselected, if_neg hdata, if_true]

theorem writeHigh_of_ne (h : c.selected ≠ Register.transferLength) (value : Byte) (vram : Vram) :
    (c.writeHigh value vram).1 = false ∧ (c.writeHigh value vram).2.1.pending = c.pending := by
  unfold writeHigh
  dsimp only
  split
  · exact ⟨rfl, rfl⟩
  · split
    · exact absurd ‹_› h
    · split <;> exact ⟨rfl, rfl⟩

/-- Video memory is written through two registers only. -/
theorem vram_writeHigh (hdata : c.selected ≠ Register.data)
    (hlength : c.selected ≠ Register.transferLength) (value : Byte) (vram : Vram) :
    (c.writeHigh value vram).2.2 = vram := by
  have hselected : ∀ w, (c.setRegister c.selected w).selected = c.selected := fun _ => rfl
  simp only [writeHigh, hselected, if_neg hdata, if_neg hlength]
  split <;> rfl

theorem highQueues_of_transferLength (h : c.selected = Register.transferLength) :
    c.highQueues = c.eventEnabled .vramTransferDone := by
  simp only [highQueues, h, decide_true, Bool.true_and]

theorem highQueues_of_ne (h : c.selected ≠ Register.transferLength) : c.highQueues = false := by
  rw [highQueues, decide_eq_false h, Bool.false_and]

theorem writeHigh_fst (value : Byte) (vram : Vram) :
    (c.writeHigh value vram).1 = c.highQueues := by
  by_cases h : c.selected = Register.transferLength
  · rw [writeHigh_of_transferLength c h, transfer_fst, h,
      eventEnabled_setRegister _ (by decide) (by decide), highQueues_of_transferLength c h]
  · rw [(writeHigh_of_ne c h value vram).1, highQueues_of_ne c h]

theorem pending_writeHigh (value : Byte) (vram : Vram) :
    (c.writeHigh value vram).2.1.pending =
      if c.highQueues then c.pending.push .vramTransferDone else c.pending := by
  by_cases h : c.selected = Register.transferLength
  · rw [writeHigh_of_transferLength c h, pending_transfer, h, pending_setRegister,
      eventEnabled_setRegister _ (by decide) (by decide), highQueues_of_transferLength c h]
  · rw [(writeHigh_of_ne c h value vram).2, highQueues_of_ne c h]
    rfl

end Controller

end PcEngine.Video
