/-
PcEngine/Proofs/Checked/Video.lean

The video controller stays in its bounds, and so never fails.

Two numbers of the controller are used to look things up: the selected register,
which is one of 32, and the count of pending events, of which there are at most
four (`Controller.Bounded`).  Every operation keeps them so (`Bounded.step`).

The checked operations look up the selected register without reducing its number,
push and pop events with the count as an index, and read and write video memory by
bytes, two of them for a word, as the renderer and the host see it.  They take
`limit`, the number of values that an index has; all that is asked of it is that
video memory can be indexed.  On a controller in its bounds they do what the total
operations do (`checkedStep_eq`).
-/
import PcEngine.Proofs.Checked.Basic
import PcEngine.Proofs.Video.Pending

namespace PcEngine

variable {limit : Nat}

/-! ### Video memory, by bytes -/

namespace Vram

/-- Byte `i`. -/
def checkedByte (v : Vram) (i : Nat) : Checked Byte :=
  if i < vramSize then .ok (v.byte i) else .error .index

/-- Replace byte `i`. -/
def checkedSetByte (v : Vram) (i : Nat) (b : Byte) : Checked Vram :=
  if i < vramSize then .ok (v.setByte i b) else .error .index

/-- The word at an address. -/
def checkedRead (limit : Nat) (v : Vram) (addr : Word) : Checked Word := do
  let i ← Checked.mul limit (addr.toNat % vramWords) 2
  let lo ← v.checkedByte i
  let hi ← v.checkedByte (← Checked.add limit i 1)
  return Word.ofBytes lo hi

/-- Replace the word at an address. -/
def checkedWrite (limit : Nat) (v : Vram) (addr value : Word) : Checked Vram := do
  let i ← Checked.mul limit (addr.toNat % vramWords) 2
  let v ← v.checkedSetByte i (Word.low value)
  v.checkedSetByte (← Checked.add limit i 1) (Word.high value)

variable (v : Vram)

theorem checkedByte_ok {i : Nat} (h : i < vramSize) : v.checkedByte i = .ok (v.byte i) := if_pos h

theorem checkedSetByte_ok {i : Nat} (h : i < vramSize) (b : Byte) :
    v.checkedSetByte i b = .ok (v.setByte i b) := if_pos h

/-- The two bytes of a word. -/
theorem ofBytes_byte (addr : Word) :
    Word.ofBytes (v.byte (addr.toNat % vramWords * 2)) (v.byte (addr.toNat % vramWords * 2 + 1)) =
      v.read addr := by
  have hcell : addr.toNat % vramWords < vramWords := Nat.mod_lt _ (by decide)
  have hlow : v.byte (addr.toNat % vramWords * 2) = Word.low (v.read addr) := by
    simp only [byte, Nat.mul_mod_left, Nat.mul_div_cancel _ (Nat.zero_lt_two), if_true,
      Vector.getElem?_eq_getElem hcell, Option.getD_some]
    rfl
  have hhigh : v.byte (addr.toNat % vramWords * 2 + 1) = Word.high (v.read addr) := by
    have hdiv : (addr.toNat % vramWords * 2 + 1) / 2 = addr.toNat % vramWords := by omega
    have hmod : (addr.toNat % vramWords * 2 + 1) % 2 ≠ 0 := by omega
    simp only [byte, hdiv, if_neg hmod, Vector.getElem?_eq_getElem hcell, Option.getD_some]
    rfl
  rw [hlow, hhigh, Word.ofBytes_low_high]

theorem setByte_setByte (addr value : Word) :
    (v.setByte (addr.toNat % vramWords * 2) (Word.low value)).setByte
      (addr.toNat % vramWords * 2 + 1) (Word.high value) = v.write addr value := by
  have hcell : addr.toNat % vramWords < vramWords := Nat.mod_lt _ (by decide)
  have hdiv : (addr.toNat % vramWords * 2 + 1) / 2 = addr.toNat % vramWords := by omega
  have hmod : (addr.toNat % vramWords * 2 + 1) % 2 ≠ 0 := by omega
  simp only [setByte, Nat.mul_mod_left, Nat.mul_div_cancel _ (Nat.zero_lt_two), if_true, hdiv,
    if_neg hmod, Vector.getElem?_setIfInBounds_self, if_pos hcell, Option.getD_some,
    Vector.setIfInBounds_setIfInBounds, Word.setLow, Word.setHigh, Word.low_ofBytes,
    Word.ofBytes_low_high, write]
  exact congrArg Vram.mk (Checked.set_eq_setIfInBounds hcell value).symm

/-- The bytes of a word are bytes of video memory. -/
theorem checkedRead_eq (hlimit : vramSize < limit) (addr : Word) :
    v.checkedRead limit addr = .ok (v.read addr) := by
  have hcell : addr.toNat % vramWords < vramWords := Nat.mod_lt _ (by decide)
  have hlo : addr.toNat % vramWords * 2 < vramSize := by simp only [vramSize]; omega
  have hhi : addr.toNat % vramWords * 2 + 1 < vramSize := by simp only [vramSize]; omega
  rw [checkedRead, Checked.mul_ok (by omega), Checked.ok_bind, checkedByte_ok v hlo,
    Checked.ok_bind, Checked.add_ok (by omega), Checked.ok_bind, checkedByte_ok v hhi,
    Checked.ok_bind, Checked.pure_eq_ok, ofBytes_byte]

theorem checkedWrite_eq (hlimit : vramSize < limit) (addr value : Word) :
    v.checkedWrite limit addr value = .ok (v.write addr value) := by
  have hcell : addr.toNat % vramWords < vramWords := Nat.mod_lt _ (by decide)
  have hlo : addr.toNat % vramWords * 2 < vramSize := by simp only [vramSize]; omega
  have hhi : addr.toNat % vramWords * 2 + 1 < vramSize := by simp only [vramSize]; omega
  rw [checkedWrite, Checked.mul_ok (by omega), Checked.ok_bind, checkedSetByte_ok v hlo,
    Checked.ok_bind, Checked.add_ok (by omega), Checked.ok_bind, checkedSetByte_ok _ hhi,
    setByte_setByte]

end Vram

namespace Video

/-! ### Pending events -/

namespace EventQueue

/-- Move all events one place to the left, over the oldest. -/
def checkedDropOldest (q : EventQueue) : Checked EventQueue := do
  return { q.dropOldest with count := ← Checked.sub q.count 1 }

/-- Add an event, dropping the oldest one if there is no room. -/
def checkedPush (limit : Nat) (q : EventQueue) (e : Event) : Checked EventQueue := do
  let q ← if q.count = queueDepth then q.checkedDropOldest else pure q
  let places ← Checked.set q.places q.count e
  return { places := places, count := ← Checked.add limit q.count 1 }

/-- Take the newest event. -/
def checkedPop (q : EventQueue) : Checked (Option Event × EventQueue) := do
  if q.count = 0 then return (none, q)
  else
    let count ← Checked.sub q.count 1
    let e ← Checked.get q.places count
    return (some e, { q with count := count })

/-- The newest event. -/
def checkedPeek (q : EventQueue) : Checked (Option Event) := do
  if q.count = 0 then return none
  else return some (← Checked.get q.places (← Checked.sub q.count 1))

variable {q : EventQueue}

theorem count_dropOldest (q : EventQueue) : q.dropOldest.count = q.count - 1 := rfl

theorem count_push (h : q.count ≤ queueDepth) (e : Event) : (q.push e).count ≤ queueDepth := by
  by_cases hfull : q.count = queueDepth
  · show (if q.count = queueDepth then q.dropOldest else q).count + 1 ≤ queueDepth
    rw [if_pos hfull, count_dropOldest, hfull]
    exact Nat.le_refl queueDepth
  · simp only [push, if_neg hfull]
    omega

/-- There is room once the oldest event has been dropped from a full queue. -/
theorem checkedPush_eq (hlimit : vramSize < limit) (h : q.count ≤ queueDepth) (e : Event) :
    q.checkedPush limit e = .ok (q.push e) := by
  have hdepth : queueDepth < vramSize := by decide
  by_cases hfull : q.count = queueDepth
  · have hone : 1 ≤ q.count := by rw [hfull]; decide
    have hdrop : q.checkedDropOldest = .ok q.dropOldest := by
      rw [checkedDropOldest, Checked.sub_ok hone]
      rfl
    have hroom : q.dropOldest.count < queueDepth := by
      rw [count_dropOldest]
      omega
    have hsum : q.dropOldest.count + 1 < limit := by omega
    simp only [checkedPush, push, if_pos hfull, hdrop, Checked.ok_bind,
      Checked.set_ok_setIfInBounds hroom, Checked.add_ok hsum, Checked.pure_eq_ok]
  · have hroom : q.count < queueDepth := by omega
    have hsum : q.count + 1 < limit := by omega
    simp only [checkedPush, push, if_neg hfull, Checked.ok_bind,
      Checked.set_ok_setIfInBounds hroom, Checked.add_ok hsum, Checked.pure_eq_ok]

/-- The newest event of a queue that holds some. -/
theorem peek_succ {places : Vector Event queueDepth} {count : Nat} (h : count < queueDepth) :
    peek ⟨places, count + 1⟩ = some (places.get ⟨count, h⟩) := by
  rw [peek, if_neg (Nat.succ_ne_zero count), Nat.add_sub_cancel]
  exact Vector.getElem?_eq_getElem h

theorem checkedPop_eq (h : q.count ≤ queueDepth) : q.checkedPop = .ok q.pop := by
  rcases q with ⟨places, count⟩
  rcases count with - | count
  · rfl
  · have htop : count < queueDepth := h
    simp only [checkedPop, pop, peek_succ htop, Nat.succ_ne_zero, if_false, Nat.add_sub_cancel,
      Checked.sub_ok (Nat.le_add_left 1 count), Checked.ok_bind, Checked.get_ok htop,
      Checked.pure_eq_ok]

theorem checkedPeek_eq (h : q.count ≤ queueDepth) : q.checkedPeek = .ok q.peek := by
  rcases q with ⟨places, count⟩
  rcases count with - | count
  · rfl
  · have htop : count < queueDepth := h
    simp only [checkedPeek, peek_succ htop, Nat.succ_ne_zero, if_false, Nat.add_sub_cancel,
      Checked.sub_ok (Nat.le_add_left 1 count), Checked.ok_bind, Checked.get_ok htop,
      Checked.pure_eq_ok]

end EventQueue

/-! ### The controller in its bounds -/

namespace Controller

/-- The selected register is one of 32, and there are at most four pending
events. -/
structure Bounded (c : Controller) : Prop where
  selected : c.selected < registerCount
  pending : c.pending.count ≤ queueDepth

variable {c : Controller}

theorem bounded_powerOn : powerOn.Bounded := ⟨by decide, by decide⟩

namespace Bounded

theorem setRegister (h : c.Bounded) (n : Nat) (w : Word) : (c.setRegister n w).Bounded :=
  ⟨h.selected, h.pending⟩

theorem raise (h : c.Bounded) (e : Event) : (c.raise e).2.Bounded := by
  unfold Controller.raise
  dsimp only
  split
  · exact ⟨h.selected, EventQueue.count_push h.pending e⟩
  · exact ⟨h.selected, h.pending⟩

theorem transfer (h : c.Bounded) (vram : Vram) : (c.transfer vram).2.1.Bounded := by
  exact ((h.setRegister _ _).setRegister _ _).raise .vramTransferDone

theorem writeHigh (h : c.Bounded) (value : Byte) (vram : Vram) :
    (c.writeHigh value vram).2.1.Bounded := by
  unfold Controller.writeHigh
  dsimp only
  split
  · exact ⟨h.selected, h.pending⟩
  · split
    · exact (h.setRegister _ _).transfer vram
    · split <;> exact ⟨h.selected, h.pending⟩

theorem readHigh (h : c.Bounded) (vram : Vram) : (c.readHigh vram).2.Bounded := by
  unfold Controller.readHigh
  split
  · exact ⟨h.selected, h.pending⟩
  · exact h

theorem popEvent (h : c.Bounded) : c.popEvent.2.Bounded :=
  ⟨h.selected, Nat.le_trans (Nat.sub_le _ _) h.pending⟩

theorem serviceSprites (h : c.Bounded) (vram : Vram) : (c.serviceSprites vram).2.Bounded := by
  unfold Controller.serviceSprites
  split
  · refine Bounded.raise ?_ .spriteTransferDone
    exact ⟨h.selected, h.pending⟩
  · exact h

/-- **Every operation keeps the controller in its bounds.** -/
theorem step (h : c.Bounded) (op : Op) : (c.step op).2.Bounded := by
  cases op with
  | select value => exact ⟨Nat.mod_lt _ (by decide), h.pending⟩
  | writeHigh value vram => exact h.writeHigh value vram
  | readHigh vram => exact h.readHigh vram
  | raise e => exact h.raise e
  | popEvent => exact h.popEvent
  | serviceSprites vram => exact h.serviceSprites vram
  | reset => exact bounded_powerOn
  | writeLow value | readStatus | setBusy busy | takeModeChange => exact ⟨h.selected, h.pending⟩

end Bounded

/-! ### Checked operations

Registers with a fixed number are looked up as before: their numbers are below 32 by
themselves. -/

/-- The selected register. -/
def checkedCurrent (c : Controller) : Checked Word := Checked.get c.registers c.selected

/-- Replace the selected register. -/
def checkedSetCurrent (c : Controller) (w : Word) : Checked Controller := do
  return { c with registers := ← Checked.set c.registers c.selected w }

def checkedAddressStep (c : Controller) : Checked Word :=
  Checked.get addressSteps ((c.register Register.control).toNat / 2048 % 4)

def checkedRaise (limit : Nat) (c : Controller) (e : Event) : Checked (Bool × Controller) := do
  let latched := { c with status := c.status ||| e.statusBit }
  if c.eventEnabled e then
    return (true, { latched with pending := ← c.pending.checkedPush limit e })
  else return (false, latched)

def checkedPopEvent (c : Controller) : Checked (Option Event × Controller) := do
  let popped ← c.pending.checkedPop
  return (popped.1, { c with pending := popped.2 })

def checkedCopyWords (limit : Nat) (vram : Vram) (source target sourceStep targetStep : Word) :
    Nat → Checked Vram
  | 0 => return vram
  | n + 1 => do
    let word ← vram.checkedRead limit source
    let vram ← vram.checkedWrite limit target word
    checkedCopyWords limit vram (source + sourceStep) (target + targetStep) sourceStep
      targetStep n

/-- The number of words of a transfer has 32 bits. -/
def checkedTransfer (limit : Nat) (c : Controller) (vram : Vram) :
    Checked (Bool × Controller × Vram) := do
  let source := c.register Register.transferSource
  let target := c.register Register.transferTarget
  let sourceStep := c.transferStep 2
  let targetStep := c.transferStep 3
  let words ← Checked.add UInt32.size (c.register Register.transferLength).toNat 1
  let vram ← checkedCopyWords limit vram source target sourceStep targetStep words
  let c := c.setRegister Register.transferSource (source + UInt16.ofNat words * sourceStep)
  let c := c.setRegister Register.transferTarget (target + UInt16.ofNat words * targetStep)
  let raised ← c.checkedRaise limit .vramTransferDone
  return (raised.1, raised.2, vram)

def checkedServiceSprites (limit : Nat) (c : Controller) (vram : Vram) :
    Checked (Bool × Controller) := do
  if c.spritesPending || Word.bit (c.register Register.transferControl) 4 then
    let table := c.register Register.spriteTable
    let sprites ← Vector.ofFnM fun i => vram.checkedRead limit (table + UInt16.ofNat i.val)
    { c with spritesPending := false, sprites := sprites }.checkedRaise limit .spriteTransferDone
  else return (false, c)

def checkedWriteLow (c : Controller) (value : Byte) : Checked Controller := do
  let c ← c.checkedSetCurrent (Word.setLow (← c.checkedCurrent) value)
  return c.noteGeometry

def checkedWriteHigh (limit : Nat) (c : Controller) (value : Byte) (vram : Vram) :
    Checked (Bool × Controller × Vram) := do
  let c ← c.checkedSetCurrent (Word.setHigh (← c.checkedCurrent) value)
  if c.selected = Register.data then
    let addr := c.register Register.writeAddress
    let vram ← vram.checkedWrite limit addr (c.register Register.data)
    return (false, c.setRegister Register.writeAddress (addr + (← c.checkedAddressStep)), vram)
  else if c.selected = Register.transferLength then c.checkedTransfer limit vram
  else if c.selected = Register.spriteTable then
    return (false, { c with spritesPending := true }, vram)
  else return (false, c.noteGeometry, vram)

def checkedReadLow (limit : Nat) (c : Controller) (vram : Vram) : Checked Byte := do
  if c.selected = Register.data then
    return Word.low (← vram.checkedRead limit (c.register Register.readAddress))
  else return Word.low (← c.checkedCurrent)

def checkedReadHigh (limit : Nat) (c : Controller) (vram : Vram) :
    Checked (Byte × Controller) := do
  if c.selected = Register.data then
    let addr := c.register Register.readAddress
    let word ← vram.checkedRead limit addr
    return (Word.high word,
      c.setRegister Register.readAddress (addr + (← c.checkedAddressStep)))
  else return (Word.high (← c.checkedCurrent), c)

/-- The first line of the display; the sum has 16 bits. -/
def checkedFirstLine (c : Controller) : Checked Word := do
  let sync := c.register Register.verticalSync
  return UInt16.ofNat (← Checked.add UInt16.size (Word.high sync).toNat (Word.low sync).toNat)

/-- Width of the display in pixels; all of it has 16 bits. -/
def checkedWidth (c : Controller) : Checked Word := do
  let display := c.register Register.horizontalDisplay
  let columns ← Checked.add UInt16.size (Word.low display).toNat 1
  return UInt16.ofNat (← Checked.mul UInt16.size columns 8)

/-- Carry out an operation. -/
def checkedStep (limit : Nat) (c : Controller) : Op → Checked (Answer × Controller)
  | .writeLow value => do return (.done, ← c.checkedWriteLow value)
  | .writeHigh value vram => do
    let written ← c.checkedWriteHigh limit value vram
    return (.flag written.1, written.2.1)
  | .readHigh vram => do
    let high ← c.checkedReadHigh limit vram
    return (.byte high.1, high.2)
  | .raise e => do
    let raised ← c.checkedRaise limit e
    return (.flag raised.1, raised.2)
  | .popEvent => do
    let popped ← c.checkedPopEvent
    return (.event popped.1, popped.2)
  | .serviceSprites vram => do
    let serviced ← c.checkedServiceSprites limit vram
    return (.flag serviced.1, serviced.2)
  -- nothing is looked up or counted here
  | .select value => return c.step (.select value)
  | .readStatus => return c.step .readStatus
  | .setBusy busy => return c.step (.setBusy busy)
  | .takeModeChange => return c.step .takeModeChange
  | .reset => return c.step .reset

/-! ### In its bounds the controller does not fail -/

theorem checkedAddressStep_eq (c : Controller) : c.checkedAddressStep = .ok c.addressStep :=
  Checked.get_ok (Nat.mod_lt _ (by decide))

/-- Two bytes are added up. -/
theorem checkedFirstLine_eq (c : Controller) : c.checkedFirstLine = .ok c.firstLine := by
  have hhigh := (Word.high (c.register Register.verticalSync)).toNat_lt
  have hlow := (Word.low (c.register Register.verticalSync)).toNat_lt
  have hsum : (Word.high (c.register Register.verticalSync)).toNat +
      (Word.low (c.register Register.verticalSync)).toNat < UInt16.size := by
    simp only [UInt16.size]
    omega
  rw [checkedFirstLine, Checked.add_ok hsum, Checked.ok_bind, Checked.pure_eq_ok]
  refine congrArg Except.ok (UInt16.toNat_inj.mp ?_)
  rw [UInt16.toNat_ofNat', firstLine, UInt16.toNat_add, UInt8.toNat_toUInt16,
    UInt8.toNat_toUInt16]

/-- There are at most 256 columns. -/
theorem checkedWidth_eq (c : Controller) : c.checkedWidth = .ok c.width := by
  have hlow := (Word.low (c.register Register.horizontalDisplay)).toNat_lt
  have hsum : (Word.low (c.register Register.horizontalDisplay)).toNat + 1 < UInt16.size := by
    simp only [UInt16.size]
    omega
  have hproduct :
      ((Word.low (c.register Register.horizontalDisplay)).toNat + 1) * 8 < UInt16.size := by
    simp only [UInt16.size]
    omega
  rw [checkedWidth, Checked.add_ok hsum, Checked.ok_bind, Checked.mul_ok hproduct,
    Checked.ok_bind, Checked.pure_eq_ok]
  refine congrArg Except.ok (UInt16.toNat_inj.mp ?_)
  rw [UInt16.toNat_ofNat', width, UInt16.toNat_mul, UInt16.toNat_add, UInt8.toNat_toUInt16]
  exact congrArg (· * 8 % Nat.pow 2 16) (Nat.mod_eq_of_lt hsum).symm

theorem checkedCopyWords_eq (hlimit : vramSize < limit) (vram : Vram)
    (source target sourceStep targetStep : Word) (n : Nat) :
    checkedCopyWords limit vram source target sourceStep targetStep n =
      .ok (copyWords vram source target sourceStep targetStep n) := by
  induction n generalizing vram source target with
  | zero => rfl
  | succ n ih =>
    rw [checkedCopyWords, Vram.checkedRead_eq vram hlimit, Checked.ok_bind,
      Vram.checkedWrite_eq vram hlimit, Checked.ok_bind, ih, copyWords]

namespace Bounded

theorem checkedCurrent_eq (h : c.Bounded) : c.checkedCurrent = .ok (c.register c.selected) := by
  have hindex : index c.selected = ⟨c.selected, h.selected⟩ :=
    Fin.ext (Nat.mod_eq_of_lt h.selected)
  rw [checkedCurrent, Checked.get_ok h.selected]
  exact congrArg (fun i => Except.ok (c.registers.get i)) hindex.symm

theorem checkedSetCurrent_eq (h : c.Bounded) (w : Word) :
    c.checkedSetCurrent w = .ok (c.setRegister c.selected w) := by
  have hindex : (index c.selected).val = c.selected := Nat.mod_eq_of_lt h.selected
  simp only [checkedSetCurrent, Checked.set_ok h.selected, Checked.ok_bind, Checked.pure_eq_ok,
    Controller.setRegister, hindex]

theorem checkedRaise_eq (hlimit : vramSize < limit) (h : c.Bounded) (e : Event) :
    c.checkedRaise limit e = .ok (c.raise e) := by
  simp only [checkedRaise, Controller.raise, EventQueue.checkedPush_eq hlimit h.pending,
    Checked.ok_bind, Checked.pure_eq_ok]
  split <;> rfl

theorem checkedPeekEvent_eq (h : c.Bounded) : c.pending.checkedPeek = .ok c.pending.peek :=
  EventQueue.checkedPeek_eq h.pending

theorem checkedPopEvent_eq (h : c.Bounded) : c.checkedPopEvent = .ok c.popEvent := by
  rw [checkedPopEvent, EventQueue.checkedPop_eq h.pending]
  rfl

theorem checkedTransfer_eq (hlimit : vramSize < limit) (h : c.Bounded) (vram : Vram) :
    c.checkedTransfer limit vram = .ok (c.transfer vram) := by
  have hlength := (c.register Register.transferLength).toNat_lt
  have hwords : (c.register Register.transferLength).toNat + 1 < UInt32.size := by
    simp only [UInt32.size]
    omega
  -- the address registers have no part in the bounds
  have hraise : ∀ a b, ((c.setRegister Register.transferSource a).setRegister
      Register.transferTarget b).checkedRaise limit .vramTransferDone =
      .ok (((c.setRegister Register.transferSource a).setRegister
        Register.transferTarget b).raise .vramTransferDone) := fun a b =>
    checkedRaise_eq hlimit ((h.setRegister _ a).setRegister _ b) .vramTransferDone
  simp only [checkedTransfer, Checked.add_ok hwords, Checked.ok_bind, checkedCopyWords_eq hlimit,
    hraise, Checked.pure_eq_ok]
  rfl

theorem checkedServiceSprites_eq (hlimit : vramSize < limit) (h : c.Bounded) (vram : Vram) :
    c.checkedServiceSprites limit vram = .ok (c.serviceSprites vram) := by
  have hread : ∀ addr, vram.checkedRead limit addr = .ok (vram.read addr) :=
    vram.checkedRead_eq hlimit
  have hraise : ∀ sprites,
      { c with spritesPending := false, sprites := sprites }.checkedRaise limit
        .spriteTransferDone =
      .ok ({ c with spritesPending := false, sprites := sprites }.raise
        .spriteTransferDone) := by
    intro sprites
    refine checkedRaise_eq hlimit ?_ .spriteTransferDone
    exact ⟨h.selected, h.pending⟩
  simp only [checkedServiceSprites, hread, Checked.ofFnM_ok, Checked.ok_bind, hraise,
    Controller.serviceSprites, Checked.pure_eq_ok]
  split <;> rfl

theorem checkedWriteLow_eq (h : c.Bounded) (value : Byte) :
    c.checkedWriteLow value = .ok (c.writeLow value) := by
  simp only [checkedWriteLow, h.checkedCurrent_eq, h.checkedSetCurrent_eq, Checked.ok_bind,
    Checked.pure_eq_ok, writeLow]

theorem checkedWriteHigh_eq (hlimit : vramSize < limit) (h : c.Bounded) (value : Byte)
    (vram : Vram) : c.checkedWriteHigh limit value vram = .ok (c.writeHigh value vram) := by
  have htransfer : ∀ w, (c.setRegister c.selected w).checkedTransfer limit vram =
      .ok ((c.setRegister c.selected w).transfer vram) := fun w =>
    checkedTransfer_eq hlimit (h.setRegister _ w) vram
  simp only [checkedWriteHigh, h.checkedCurrent_eq, h.checkedSetCurrent_eq, Checked.ok_bind,
    Vram.checkedWrite_eq vram hlimit, checkedAddressStep_eq, htransfer, Checked.pure_eq_ok,
    Controller.writeHigh]
  split
  · rfl
  · split
    · rfl
    · split <;> rfl

theorem checkedReadLow_eq (hlimit : vramSize < limit) (h : c.Bounded) (vram : Vram) :
    c.checkedReadLow limit vram = .ok (c.readLow vram) := by
  simp only [checkedReadLow, Vram.checkedRead_eq vram hlimit, h.checkedCurrent_eq,
    Checked.ok_bind, Checked.pure_eq_ok, readLow]
  split <;> rfl

theorem checkedReadHigh_eq (hlimit : vramSize < limit) (h : c.Bounded) (vram : Vram) :
    c.checkedReadHigh limit vram = .ok (c.readHigh vram) := by
  simp only [checkedReadHigh, Vram.checkedRead_eq vram hlimit, h.checkedCurrent_eq,
    checkedAddressStep_eq, Checked.ok_bind, Checked.pure_eq_ok, Controller.readHigh]
  split <;> rfl

/-- **No operation of a controller in its bounds fails.** -/
theorem checkedStep_eq (hlimit : vramSize < limit) (h : c.Bounded) (op : Op) :
    c.checkedStep limit op = .ok (c.step op) := by
  cases op with
  | writeLow value =>
    rw [checkedStep, h.checkedWriteLow_eq]
    rfl
  | writeHigh value vram =>
    rw [checkedStep, h.checkedWriteHigh_eq hlimit]
    rfl
  | readHigh vram =>
    rw [checkedStep, h.checkedReadHigh_eq hlimit]
    rfl
  | raise e =>
    rw [checkedStep, h.checkedRaise_eq hlimit]
    rfl
  | popEvent =>
    rw [checkedStep, h.checkedPopEvent_eq]
    rfl
  | serviceSprites vram =>
    rw [checkedStep, h.checkedServiceSprites_eq hlimit]
    rfl
  | select value | readStatus | setBusy busy | takeModeChange | reset => rfl

end Bounded

/-- Out of its bounds a controller can fail. -/
example : { powerOn with selected := registerCount }.checkedWriteLow 0 = .error .index := rfl

end Controller

end Video

end PcEngine
