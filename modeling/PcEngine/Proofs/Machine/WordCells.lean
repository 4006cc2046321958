/-
PcEngine/Proofs/Machine/WordCells.lean

Word accesses reach memory and nothing else.

A word access never asks whether its slot shows a device.  It takes the cell that
`Page.wordCell` names and the one behind it, and these are cells of a memory
whatever the page is: on a flat page the cells of the address, on the hardware page
cells of the sink.  So a word can be written nowhere else (`Carries.only_writeWord`),
and the devices, the latch, bank switching and the page register stay out of reach.

Through the hardware page a word can be read back, because reading and writing then
mean the same two cells.  The last address of the page is the exception: its low
byte has the last cell of the sink, and no cell is left for the high byte
(`Carries.readWord_writeWord_hardware`).

Main result: `wordAccess_reachesCells`, for every machine that can be reached.
-/
import PcEngine.Proofs.Machine.Sides

namespace PcEngine.Machine

variable {m : Machine} {rom : Array Byte} {card : Card} {settings : Settings}
variable {sel : Option Nat} {addr : Word}

/-! ### The cells of a word on the hardware page -/

theorem wordCell_of_hardware (hpage : m.slots.writePage addr = .hardware) :
    (m.slots.writePage addr).wordCell addr = (.sink, trapOffset + addr.toNat % bankSize) := by
  rw [hpage, Page.wordCell]

/-- Only the last address of the page has no cell for the high byte. -/
theorem trapCell_lt_iff (addr : Word) :
    trapOffset + addr.toNat % bankSize + 1 < sinkSize ↔ addr.toNat % bankSize ≠ bankSize - 1 := by
  have hlt : addr.toNat % bankSize < bankSize := Nat.mod_lt _ (by decide)
  simp only [sinkSize]
  omega

theorem keepsMemory_writeWord (hpage : m.slots.writePage addr = .hardware) (value : Word) :
    m.KeepsMemory (m.writeWord addr value) := by
  intro r hr
  rw [store_writeWord (wordCell_of_hardware hpage), Store.region_poke_of_ne _ hr,
    Store.region_poke_of_ne _ hr]

namespace Carries

/-! ### What a word write changes -/

/-- Nothing but the four memories that can be written. -/
theorem only_writeWord (h : m.Carries rom card settings sel) (addr value : Word) :
    m.writeWord addr value = { m with
      store := { (m.writeWord addr value).store with
        rom := m.store.rom
        vram := m.store.vram } } := by
  rcases hcell : (m.slots.writePage addr).wordCell addr with ⟨region, cell⟩
  have hr := h.wordRegion_ne_rom hcell
  have hrom : (m.writeWord addr value).store.rom = m.store.rom := by
    rw [store_writeWord hcell, Store.rom_poke _ hr, Store.rom_poke _ hr]
  have hvram : (m.writeWord addr value).store.vram = m.store.vram := by
    rw [store_writeWord hcell, Store.vram_poke, Store.vram_poke]
  rw [← hrom, ← hvram]
  rfl

/-! ### Through the hardware page -/

theorem readWord_writeWord_hardware (h : m.Carries rom card settings sel)
    (hpage : m.slots.writePage addr = .hardware) (value : Word) :
    (m.writeWord addr value).readWord addr =
      if addr.toNat % bankSize = bankSize - 1 then Word.setHigh value openBus else value := by
  have hsame : m.slots.readPage addr = m.slots.writePage addr := by
    rw [hpage, (h.hardware_iff addr).mp hpage]
  have hsize : (m.store.region .sink).size = sinkSize := h.size .sink
  rw [h.readWord_writeWord (wordCell_of_hardware hpage) hsame, hsize]
  by_cases hlast : addr.toNat % bankSize = bankSize - 1
  · rw [if_neg fun hlt => (trapCell_lt_iff addr).mp hlt hlast, if_pos hlast, Word.setHigh]
  · rw [if_pos ((trapCell_lt_iff addr).mpr hlast), if_neg hlast, Word.ofBytes_low_high]

end Carries

/-! ### Every address -/

/-- What word accesses at an address reach.

* `read` — reading a word changes nothing;
* `only` — writing one changes nothing but work RAM, backup RAM, card RAM and the
  sink;
* `cells` — of these it changes one, in two neighbouring cells at most, which take
  the two bytes;
* `hardware` — through the hardware page this is the sink;
* `readBack` — and the word is read back there; its high byte reads as the open bus
  at the last address of the page. -/
structure ReachesCells (m : Machine) (addr : Word) : Prop where
  read : (m.step (.readWord addr)).2 = m
  only : ∀ value, m.writeWord addr value = { m with
    store := { (m.writeWord addr value).store with
      rom := m.store.rom
      vram := m.store.vram } }
  cells : ∃ region cell, region ≠ .rom ∧ cell < (m.store.region region).size ∧
    ∀ value r i, ((m.writeWord addr value).store.region r)[i]? =
      if r = region ∧ i = cell then some (Word.low value)
      else if r = region ∧ i = cell + 1 ∧ cell + 1 < (m.store.region region).size then
        some (Word.high value)
      else (m.store.region r)[i]?
  hardware : m.slots.readPage addr = .hardware → ∀ value, m.KeepsMemory (m.writeWord addr value)
  readBack : m.slots.readPage addr = .hardware → ∀ value,
    (m.writeWord addr value).readWord addr =
      if addr.toNat % bankSize = bankSize - 1 then Word.setHigh value openBus else value

/-- **A word access reaches two cells of memory and never a device**, on every
machine that can be reached. -/
theorem wordAccess_reachesCells (h : m.Reachable) (addr : Word) : m.ReachesCells addr := by
  obtain ⟨rom, card, settings, sel, hm⟩ := h.carries
  refine ⟨rfl, hm.only_writeWord addr, ?_, ?_, ?_⟩
  · rcases hcell : (m.slots.writePage addr).wordCell addr with ⟨region, cell⟩
    exact ⟨region, cell, hm.wordRegion_ne_rom hcell, hm.writeWordCell_lt hcell,
      hm.cells_writeWord hcell⟩
  · intro hread value
    exact keepsMemory_writeWord ((hm.hardware_iff addr).mpr hread) value
  · intro hread value
    exact hm.readWord_writeWord_hardware ((hm.hardware_iff addr).mpr hread) value

/-- At the last address of the hardware page. -/
theorem wordAccess_reachesCells_lastAddress :
    let m := (boot largeImage largeCard .standard).run selectOverRam
    m.Reachable ∧ m.slots.readPage 0x1FFF = .hardware ∧ m.ReachesCells 0x1FFF := by
  intro m
  have hm := carries_of_powerOn powerOn_largeCard selectOverRam
  have h : m.Reachable := reachable_run .standard validate_largeCard selectOverRam
  refine ⟨h, ?_, wordAccess_reachesCells h 0x1FFF⟩
  have hbank : m.slots.bankAt 0x1FFF = 0xFF := by
    show (((boot _ _ _).selectBank 2 0x40).write 0xFFF0 0).slots.banks[_] = 0xFF
    simp only [banks_write]
    rfl
  exact (hm.readPage_eq_hardware_iff 0x1FFF).mpr hbank

end PcEngine.Machine
