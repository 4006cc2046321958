/-
PcEngine/Proofs/Checked/Machine.lean

No operation of a machine that can be reached fails.

`checkedStep` carries out an operation of the machine with every look-up and every
computation checked: those of the devices, the look-ups of slots and bank table, the
numbers of cells, and the cells themselves.  With its devices in their bounds, and
with the slots and the memories of its card, the machine does the same in both ways
(`Carries.checkedStep_eq`).

The high byte of a word may lie behind its region.  The cell of the low byte has to
be there; the next one need not be, but has to have a number.

Main result: `safe_run`.  After every run from power-on the machine is in its bounds,
its memories have the sizes of its card, and no operation fails.
-/
import PcEngine.Proofs.Checked.Banks
import PcEngine.Proofs.Checked.Bounded

namespace PcEngine.Machine

variable {m start : Machine} {rom : Array Byte} {card : Card} {settings : Settings}
variable {sel : Option Nat} {limit : Nat}

/-! ### Checked operations -/

/-- Select a page of ROM, and let every slot see it. -/
def checkedSelectRomPage (limit : Nat) (m : Machine) (page : Nat) : Checked Machine := do
  let table ← m.table.checkedSelectRomPage limit page
  return { m with table := table, slots := ← Slots.checkedOfBanks table m.slots.banks }

/-- Select a page of ROM if a byte written at an address hits the page register. -/
def checkedPageRegister (limit : Nat) (m : Machine) (addr : Word) : Checked Machine := do
  let page ← m.slots.checkedReadPage addr
  if m.table.hasPageRegister && isPageRegister addr && page.isRom then
    m.checkedSelectRomPage limit (romPageOf addr)
  else return m

/-- Read from a device. -/
def checkedReadTarget (limit : Nat) (m : Machine) : Target → Checked (Byte × Machine)
  | .video 2 => do return (← m.video.checkedReadLow limit m.store.vram, m)
  | .video 3 => do
    let high ← m.video.checkedReadHigh limit m.store.vram
    return (high.1, { m with video := high.2 })
  | .palette 4 => do return (← m.palette.checkedReadLow, m)
  | .palette 5 => do
    let high ← m.palette.checkedReadHigh
    return (high.1, { m with palette := high.2 })
  | .joypad => do return (← m.joypad.checkedRead, m)
  -- the others show single bits, and nothing is looked up
  | t => return m.readTarget t

/-- Write to a device. -/
def checkedWriteTarget (limit : Nat) (m : Machine) (value : Byte) : Target → Checked Machine
  | .video 2 => do return { m with video := ← m.video.checkedWriteLow value }
  | .video 3 => do
    let written ← m.video.checkedWriteHigh limit value m.store.vram
    return { m with
      video := written.2.1
      store := { m.store with vram := written.2.2 } }.raiseVideoIf written.1
  | .palette 4 => do return { m with palette := ← m.palette.checkedWriteLow value }
  | .palette 5 => do return { m with palette := ← m.palette.checkedWriteHigh value }
  | .sound n => do return { m with sound := ← m.sound.checkedWrite limit n value }
  | .joypad => do return { m with joypad := ← m.joypad.checkedWrite limit value }
  | t => return m.writeTarget value t

/-- Read a byte. -/
def checkedRead (limit : Nat) (m : Machine) (addr : Word) : Checked (Byte × Machine) := do
  match ← m.slots.checkedReadPage addr with
  | .flat region base span =>
    let cell ← Checked.add limit base (addr.toNat % span)
    return (← m.store.checkedPeek region cell, m)
  | .hardware =>
    let answer ← m.checkedReadTarget limit (.ofOffset (addr.toNat % bankSize))
    return (answer.1, { answer.2 with latch := answer.1 })

/-- Write a byte. -/
def checkedWrite (limit : Nat) (m : Machine) (addr : Word) (value : Byte) : Checked Machine := do
  match ← m.slots.checkedWritePage addr with
  | .flat region base span =>
    let m ← m.checkedPageRegister limit addr
    let cell ← Checked.add limit base (addr.toNat % span)
    return { m with store := ← m.store.checkedPoke region cell value }
  | .hardware =>
    let m := { m with latch := value }
    m.checkedWriteTarget limit value (.ofOffset (addr.toNat % bankSize))

/-- Read a word. -/
def checkedReadWord (limit : Nat) (m : Machine) (addr : Word) : Checked Word := do
  let cell ← (← m.slots.checkedReadPage addr).checkedWordCell limit addr
  let lo ← m.store.checkedPeek cell.1 cell.2
  let next ← Checked.add limit cell.2 1
  return Word.ofBytes lo (m.store.peek cell.1 next)

/-- Write a word. -/
def checkedWriteWord (limit : Nat) (m : Machine) (addr value : Word) : Checked Machine := do
  let cell ← (← m.slots.checkedWritePage addr).checkedWordCell limit addr
  let store ← m.store.checkedPoke cell.1 cell.2 (Word.low value)
  let next ← Checked.add limit cell.2 1
  return { m with store := store.poke cell.1 next (Word.high value) }

/-- Let processor cycles pass. -/
def checkedTick (m : Machine) (cycles : Nat) : Checked Machine := do
  let advanced ← m.timer.checkedAdvance cycles
  let m := { m with timer := advanced.2 }
  return if advanced.1 then { m with interrupts := m.interrupts.raise .timer } else m

/-- Back to power-on. -/
def checkedReset (limit : Nat) (m : Machine) : Checked Machine := do
  let table ← Table.checkedOfLayout limit m.table.layout
  let slots ← Slots.checkedOfBanks table Slots.powerOnBanks
  return { m.reset with table := table, slots := slots }

/-- Let an event of the picture happen. -/
def checkedRaiseEvent (limit : Nat) (m : Machine) (e : Video.Event) :
    Checked (Bool × Machine) := do
  let raised ← m.video.checkedRaise limit e
  return (raised.1, { m with video := raised.2 }.raiseVideoIf raised.1)

/-- The vertical blank's copy of the sprite table. -/
def checkedServiceSprites (limit : Nat) (m : Machine) : Checked (Bool × Machine) := do
  let serviced ← m.video.checkedServiceSprites limit m.store.vram
  return (serviced.1, { m with video := serviced.2 }.raiseVideoIf serviced.1)

/-- Take the newest pending event. -/
def checkedPopEvent (m : Machine) : Checked (Option Video.Event × Machine) := do
  let popped ← m.video.checkedPopEvent
  let m := { m with video := popped.2 }
  return (popped.1,
    if m.video.pending.isEmpty then { m with interrupts := m.interrupts.clear .video } else m)

/-- Carry out an operation. -/
def checkedStep (limit : Nat) (m : Machine) : Op → Checked (Answer × Machine)
  | .read addr => do
    let read ← m.checkedRead limit addr
    return (.byte read.1, read.2)
  | .write addr value => do return (.done, ← m.checkedWrite limit addr value)
  | .readWord addr => do return (.word (← m.checkedReadWord limit addr), m)
  | .writeWord addr value => do return (.done, ← m.checkedWriteWord limit addr value)
  | .selectBank slot bank => do
    return (.done, { m with slots := ← m.slots.checkedSelect m.table slot bank })
  | .tick cycles => do return (.done, ← m.checkedTick cycles.toNat)
  | .reset => do return (.done, ← m.checkedReset limit)
  | .raiseEvent e => do
    let raised ← m.checkedRaiseEvent limit e
    return (.flag raised.1, raised.2)
  | .serviceSprites => do
    let serviced ← m.checkedServiceSprites limit
    return (.flag serviced.1, serviced.2)
  | .popEvent => do
    let popped ← m.checkedPopEvent
    return (.event popped.1, popped.2)
  | .nextSample channel => do
    let taken ← m.sound.checkedNextSample limit channel
    return (.byte taken.1, { m with sound := taken.2 })
  | .clockSamples channel clocks => do
    let clocked ← m.sound.checkedClock limit channel clocks.toNat
    return (.byte clocked.1, { m with sound := clocked.2 })
  | .restoreBackup data => do
    return (.done, { m with store := ← m.store.checkedRestoreBackup data })
  | .video op => do
    let done ← m.video.checkedStep limit op
    return (done.1, { m with video := done.2 })
  -- pads that do not exist are passed over, and lines are single bits
  | .setPad n pressed => return m.step (.setPad n pressed)
  | .interrupts op => return m.step (.interrupts op)

/-! ### In its bounds the machine does not fail -/

namespace Bounded

theorem checkedReadTarget_eq (hlimit : vramSize < limit) (h : m.Bounded) (t : Target) :
    m.checkedReadTarget limit t = .ok (m.readTarget t) := by
  unfold checkedReadTarget
  split
  · rw [h.video.checkedReadLow_eq hlimit]
    rfl
  · rw [h.video.checkedReadHigh_eq hlimit]
    rfl
  · rw [h.palette.checkedReadLow_eq]
    rfl
  · rw [h.palette.checkedReadHigh_eq]
    rfl
  · rw [h.joypad.checkedRead_eq]
    rfl
  · rfl

theorem checkedWriteTarget_eq (hlimit : vramSize < limit) (h : m.Bounded) (value : Byte)
    (t : Target) : m.checkedWriteTarget limit value t = .ok (m.writeTarget value t) := by
  unfold checkedWriteTarget
  split
  · rw [h.video.checkedWriteLow_eq]
    rfl
  · rw [h.video.checkedWriteHigh_eq hlimit]
    rfl
  · rw [h.palette.checkedWriteLow_eq]
    rfl
  · rw [h.palette.checkedWriteHigh_eq]
    rfl
  · rw [h.sound.checkedWrite_eq hlimit]
    rfl
  · rw [h.joypad.checkedWrite_eq hlimit]
    rfl
  · rfl

theorem checkedTick_eq (h : m.Bounded) (cycles : UInt32) :
    m.checkedTick cycles.toNat = .ok (m.tick cycles.toNat) := by
  rw [checkedTick, h.timer.checkedAdvance_eq]
  rfl

theorem checkedRaiseEvent_eq (hlimit : vramSize < limit) (h : m.Bounded) (e : Video.Event) :
    m.checkedRaiseEvent limit e = .ok (m.raiseEvent e) := by
  rw [checkedRaiseEvent, h.video.checkedRaise_eq hlimit]
  rfl

theorem checkedServiceSprites_eq (hlimit : vramSize < limit) (h : m.Bounded) :
    m.checkedServiceSprites limit = .ok m.serviceSprites := by
  rw [checkedServiceSprites, h.video.checkedServiceSprites_eq hlimit]
  rfl

theorem checkedPopEvent_eq (h : m.Bounded) : m.checkedPopEvent = .ok m.popEvent := by
  rw [checkedPopEvent, h.video.checkedPopEvent_eq]
  rfl

end Bounded

/-! ### Accesses of a machine that carries a card do not fail -/

namespace Carries

theorem region_lt (hm : m.Carries rom card settings sel)
    (hl : (layoutOf card settings).Countable limit) (r : Region) :
    (m.store.region r).size < limit := by
  rw [hm.size]
  exact hl.region r

theorem layout_countable (hm : m.Carries rom card settings sel)
    (hl : (layoutOf card settings).Countable limit) : m.table.layout.Countable limit := by
  rw [hm.layout_eq]
  exact hl

theorem checkedRead_eq (hm : m.Carries rom card settings sel)
    (hl : (layoutOf card settings).Countable limit) (h : m.Bounded) (addr : Word) :
    m.checkedRead limit addr = .ok (m.read addr) := by
  rw [checkedRead, Slots.checkedReadPage_eq, Checked.ok_bind, Machine.read]
  rcases hpage : m.slots.readPage addr with ⟨region, base, span⟩ | -
  · have hcell := hm.readCell_lt hpage
    have hsum := Nat.lt_trans hcell (hm.region_lt hl region)
    dsimp only
    rw [Checked.add_ok hsum, Checked.ok_bind, Store.checkedPeek_ok hcell]
    rfl
  · dsimp only
    rw [h.checkedReadTarget_eq hl.vram]
    rfl

theorem checkedPageRegister_eq (hm : m.Carries rom card settings sel)
    (hl : (layoutOf card settings).Countable limit) (addr : Word) :
    m.checkedPageRegister limit addr =
      .ok (if m.selectsRomPage addr then m.selectRomPage (romPageOf addr) else m) := by
  have hpage : romPageOf addr < 4 := Nat.mod_lt _ (by decide)
  have hselect : m.checkedSelectRomPage limit (romPageOf addr) =
      .ok (m.selectRomPage (romPageOf addr)) := by
    rw [checkedSelectRomPage, Table.checkedSelectRomPage_eq (hm.layout_countable hl) hpage,
      Checked.ok_bind, Slots.checkedOfBanks_eq]
    rfl
  rw [checkedPageRegister, Slots.checkedReadPage_eq, Checked.ok_bind, hselect, selectsRomPage]
  split <;> rfl

theorem checkedWrite_eq (hm : m.Carries rom card settings sel)
    (hl : (layoutOf card settings).Countable limit) (h : m.Bounded) (addr : Word) (value : Byte) :
    m.checkedWrite limit addr value = .ok (m.write addr value) := by
  rw [checkedWrite, Slots.checkedWritePage_eq, Checked.ok_bind, Machine.write]
  rcases hpage : m.slots.writePage addr with ⟨region, base, span⟩ | -
  · have hcell := hm.writeCell_lt hpage
    have hsum := Nat.lt_trans hcell (hm.region_lt hl region)
    -- the cell is there whether or not a page has been selected
    have hstore : (if m.selectsRomPage addr then m.selectRomPage (romPageOf addr)
        else m).store = m.store := by
      split
      · exact m.store_selectRomPage _
      · rfl
    dsimp only
    rw [hm.checkedPageRegister_eq hl, Checked.ok_bind, Checked.add_ok hsum, Checked.ok_bind,
      hstore, Store.checkedPoke_ok hcell]
    rfl
  · have hlatch : Bounded { m with latch := value } := { h with }
    exact hlatch.checkedWriteTarget_eq hl.vram value _

theorem checkedReadWord_eq (hm : m.Carries rom card settings sel)
    (hl : (layoutOf card settings).Countable limit) (addr : Word) :
    m.checkedReadWord limit addr = .ok (m.readWord addr) := by
  rcases hcell : (m.slots.readPage addr).wordCell addr with ⟨region, cell⟩
  have hlt := hm.readWordCell_lt hcell
  have hnext : cell + 1 < limit := Nat.lt_of_le_of_lt hlt (hm.region_lt hl region)
  rw [checkedReadWord, Slots.checkedReadPage_eq, Checked.ok_bind,
    Page.checkedWordCell_eq hcell (Nat.lt_of_succ_lt hnext), Checked.ok_bind,
    Store.checkedPeek_ok hlt, Checked.ok_bind, Checked.add_ok hnext, readWord, hcell]
  rfl

theorem checkedWriteWord_eq (hm : m.Carries rom card settings sel)
    (hl : (layoutOf card settings).Countable limit) (addr value : Word) :
    m.checkedWriteWord limit addr value = .ok (m.writeWord addr value) := by
  rcases hcell : (m.slots.writePage addr).wordCell addr with ⟨region, cell⟩
  have hlt := hm.writeWordCell_lt hcell
  have hnext : cell + 1 < limit := Nat.lt_of_le_of_lt hlt (hm.region_lt hl region)
  rw [checkedWriteWord, Slots.checkedWritePage_eq, Checked.ok_bind,
    Page.checkedWordCell_eq hcell (Nat.lt_of_succ_lt hnext), Checked.ok_bind,
    Store.checkedPoke_ok hlt, Checked.ok_bind, Checked.add_ok hnext, writeWord, hcell]
  rfl

theorem checkedReset_eq (hm : m.Carries rom card settings sel)
    (hl : (layoutOf card settings).Countable limit) : m.checkedReset limit = .ok m.reset := by
  rw [checkedReset, Table.checkedOfLayout_eq (hm.layout_countable hl), Checked.ok_bind,
    Slots.checkedOfBanks_eq]
  rfl

/-- **No operation of a machine in its bounds fails** if it carries a card. -/
theorem checkedStep_eq (hm : m.Carries rom card settings sel)
    (hl : (layoutOf card settings).Countable limit) (h : m.Bounded) (op : Op) :
    m.checkedStep limit op = .ok (m.step op) := by
  cases op with
  | read addr =>
    rw [checkedStep, hm.checkedRead_eq hl h]
    rfl
  | write addr value =>
    rw [checkedStep, hm.checkedWrite_eq hl h]
    rfl
  | readWord addr =>
    rw [checkedStep, hm.checkedReadWord_eq hl]
    rfl
  | writeWord addr value =>
    rw [checkedStep, hm.checkedWriteWord_eq hl]
    rfl
  | selectBank slot bank =>
    rw [checkedStep, Slots.checkedSelect_eq]
    rfl
  | tick cycles =>
    rw [checkedStep, h.checkedTick_eq]
    rfl
  | reset =>
    rw [checkedStep, hm.checkedReset_eq hl]
    rfl
  | raiseEvent e =>
    rw [checkedStep, h.checkedRaiseEvent_eq hl.vram]
    rfl
  | serviceSprites =>
    rw [checkedStep, h.checkedServiceSprites_eq hl.vram]
    rfl
  | popEvent =>
    rw [checkedStep, h.checkedPopEvent_eq]
    rfl
  | nextSample channel =>
    rw [checkedStep, h.sound.checkedNextSample_eq hl.vram]
    rfl
  | clockSamples channel clocks =>
    rw [checkedStep, h.sound.checkedClock_eq hl.vram]
    rfl
  | restoreBackup data =>
    rw [checkedStep, Store.checkedRestoreBackup_eq]
    rfl
  | video op =>
    rw [checkedStep, h.video.checkedStep_eq hl.vram]
    rfl
  | setPad n pressed | interrupts op => rfl

end Carries

/-! ### After any run -/

/-- No operation of a machine fails, whatever it is.

* `bounded` — all devices are in their bounds;
* `sizes` — the regions have the sizes of the card;
* `step` — carried out with all checks, an operation does not fail, and does the
  same as without;
* `readLow` — nor does reading a register of the video controller, with any video
  memory;
* `peek`, `firstLine`, `width` — nor does asking it for the newest event and for the
  size of the picture.

An index has to be able to count the cells of every memory. -/
structure Safe (l : Layout) (m : Machine) : Prop where
  bounded : m.Bounded
  sizes : ∀ r, (m.store.region r).size = l.regionSize r
  step : ∀ {limit}, l.Countable limit → ∀ op, m.checkedStep limit op = .ok (m.step op)
  readLow : ∀ {limit}, l.Countable limit → ∀ vram,
    m.video.checkedReadLow limit vram = .ok (m.video.readLow vram)
  peek : m.video.pending.checkedPeek = .ok m.video.pending.peek
  firstLine : m.video.checkedFirstLine = .ok m.video.firstLine
  width : m.video.checkedWidth = .ok m.video.width

/-- **No operation fails, after any run.** -/
theorem safe_run (h : powerOn rom card settings = .ok start) (ops : List Op) :
    (start.run ops).Safe (layoutOf card settings) := by
  have hm : (start.run ops).Carries rom card settings _ := carries_of_powerOn h ops
  have hbounded : (start.run ops).Bounded := by
    obtain ⟨-, rfl⟩ := powerOn_eq_ok_iff.mp h
    exact (bounded_boot rom card settings).run ops
  exact
    { bounded := hbounded
      sizes := hm.size
      step := fun hl op => hm.checkedStep_eq hl hbounded op
      readLow := fun hl vram => hbounded.video.checkedReadLow_eq hl.vram vram
      peek := hbounded.video.checkedPeekEvent_eq
      firstLine := Video.Controller.checkedFirstLine_eq _
      width := Video.Controller.checkedWidth_eq _ }

/-- On a card whose memories are counted by 64 bits. -/
theorem safe_run_largeCard :
    powerOn largeImage largeCard .standard = .ok (boot largeImage largeCard .standard) ∧
      (layoutOf largeCard .standard).Countable UInt64.size ∧
      ((boot largeImage largeCard .standard).run selectOverRam).Safe
        (layoutOf largeCard .standard) := by
  refine ⟨powerOn_largeCard, ⟨by decide, ?_⟩, safe_run powerOn_largeCard selectOverRam⟩
  intro r
  cases r <;> decide

end PcEngine.Machine
