/-
PcEngine/Proofs/Machine/Extent.lean

No access of the processor leaves its region.

The slots of a machine that can be reached are always in step with its bank
table (`slots_show_table`), so the pages that they show are those of its card.
Every one of these lies inside its region (`Carries.fits_readPage`,
`Carries.fits_writePage`).  So the defaults of the store are out of reach: a
byte read of memory finds a cell, a byte write to memory replaces one, and the
low byte of a word access does so too, also when the slot shows the hardware
page.  Only the high byte of a word can fall behind a region.

Main result: this holds after every run (`staysInside_run`).
-/
import PcEngine.Proofs.Machine.Carries

namespace PcEngine.Machine

variable {m start : Machine} {rom : Array Byte} {card : Card} {settings : Settings}
variable {sel : Option Nat} {addr : Word} {region : Region} {base span : Nat}

/-! ### Slots and bank table -/

/-- **Every slot shows what the bank table says now** about its mapping
register, for reading and for writing, whatever has happened to the table
since; and it shows the hardware page, on both sides, exactly if its register
holds `$FF`. -/
theorem slots_show_table (h : m.Reachable) (s : Fin slotCount) :
    m.slots.readPages[s] = m.table.readPage m.slots.banks[s] ∧
      m.slots.writePages[s] = m.table.writePage m.slots.banks[s] ∧
      (m.slots.readPages[s] = .hardware ↔ m.slots.writePages[s] = .hardware) ∧
      (m.slots.writePages[s] = .hardware ↔ m.slots.banks[s] = 0xFF) := by
  obtain ⟨rom, card, settings, sel, hm⟩ := h.carries
  have hread : m.slots.readPages[s] = m.table.readPage m.slots.banks[s] := by
    rw [hm.slots]
    simp only [Slots.ofBanks, Fin.getElem_fin, Vector.getElem_map]
  have hwrite : m.slots.writePages[s] = m.table.writePage m.slots.banks[s] := by
    rw [hm.slots]
    simp only [Slots.ofBanks, Fin.getElem_fin, Vector.getElem_map]
  refine ⟨hread, hwrite, ?_, ?_⟩
  · rw [hread, hwrite, hm.table, Table.readPage_selected_eq_hardware_iff,
      Table.writePage_selected_eq_hardware_iff]
  · rw [hwrite, hm.table, Table.writePage_selected_eq_hardware_iff]

/-- The slot that showed card RAM shows what the changed table says. -/
theorem slots_show_table_selectOverRam :
    let m := (boot largeImage largeCard .standard).run selectOverRam
    let s := Slots.index 2
    m.Reachable ∧ m.slots.readPages[s] = m.table.readPage m.slots.banks[s] ∧
      m.slots.writePages[s] = m.table.writePage m.slots.banks[s] ∧
      (m.slots.readPages[s] = .hardware ↔ m.slots.writePages[s] = .hardware) ∧
      (m.slots.writePages[s] = .hardware ↔ m.slots.banks[s] = 0xFF) := by
  have h := reachable_run .standard validate_largeCard selectOverRam
  exact ⟨h, slots_show_table h (Slots.index 2)⟩

/-! ### What an access does to the store -/

theorem read_of_flat (hpage : m.slots.readPage addr = .flat region base span) :
    m.read addr = (m.store.peek region (base + addr.toNat % span), m) := by
  simp only [read, hpage]

/-- A byte write to memory replaces one cell, whether or not it also selects a
page of ROM. -/
theorem store_write_of_flat (hpage : m.slots.writePage addr = .flat region base span)
    (value : Byte) :
    (m.write addr value).store = m.store.poke region (base + addr.toNat % span) value := by
  simp only [write, hpage]
  split
  · rw [store_selectRomPage]
  · rfl

/-- The cells of a word access, and what it does there. -/
theorem low_readWord {cell : Nat} (hcell : (m.slots.readPage addr).wordCell addr = (region, cell)) :
    Word.low (m.readWord addr) = m.store.peek region cell := by
  simp only [readWord, hcell, Word.low_ofBytes]

theorem store_writeWord {cell : Nat}
    (hcell : (m.slots.writePage addr).wordCell addr = (region, cell)) (value : Word) :
    (m.writeWord addr value).store =
      (m.store.poke region cell (Word.low value)).poke region (cell + 1) (Word.high value) := by
  simp only [writeWord, hcell]

/-! ### Pages of a machine that carries a card -/

namespace Carries

theorem fits_readPage (h : m.Carries rom card settings sel) (addr : Word) :
    (m.slots.readPage addr).Fits (layoutOf card settings).regionSize := by
  rw [h.readPage_eq]
  exact Table.offers_readPage_selected.fits

theorem fits_writePage (h : m.Carries rom card settings sel) (addr : Word) :
    (m.slots.writePage addr).Fits (layoutOf card settings).regionSize := by
  rw [h.writePage_eq]
  exact Table.offers_writePage_selected.fits

/-! ### Cells of accesses -/

theorem readCell_lt (h : m.Carries rom card settings sel)
    (hpage : m.slots.readPage addr = .flat region base span) :
    base + addr.toNat % span < (m.store.region region).size := by
  have hfit := h.fits_readPage addr
  rw [hpage] at hfit
  rw [h.size]
  exact hfit.lt addr.toNat

theorem writeCell_lt (h : m.Carries rom card settings sel)
    (hpage : m.slots.writePage addr = .flat region base span) :
    base + addr.toNat % span < (m.store.region region).size := by
  have hfit := h.fits_writePage addr
  rw [hpage] at hfit
  rw [h.size]
  exact hfit.lt addr.toNat

theorem readWordCell_lt (h : m.Carries rom card settings sel) {cell : Nat}
    (hcell : (m.slots.readPage addr).wordCell addr = (region, cell)) :
    cell < (m.store.region region).size := by
  have hlt := (h.fits_readPage addr).wordCell_lt rfl addr
  rw [hcell] at hlt
  rw [h.size]
  exact hlt

theorem writeWordCell_lt (h : m.Carries rom card settings sel) {cell : Nat}
    (hcell : (m.slots.writePage addr).wordCell addr = (region, cell)) :
    cell < (m.store.region region).size := by
  have hlt := (h.fits_writePage addr).wordCell_lt rfl addr
  rw [hcell] at hlt
  rw [h.size]
  exact hlt

/-! ### Accesses hit their cells -/

/-- A byte read of memory finds a cell. -/
theorem getElem?_read (h : m.Carries rom card settings sel)
    (hpage : m.slots.readPage addr = .flat region base span) :
    (m.store.region region)[base + addr.toNat % span]? = some (m.read addr).1 := by
  rw [read_of_flat hpage]
  exact m.store.getElem?_of_lt (h.readCell_lt hpage)

/-- A byte write to memory replaces a cell. -/
theorem getElem?_write (h : m.Carries rom card settings sel)
    (hpage : m.slots.writePage addr = .flat region base span) (value : Byte) :
    ((m.write addr value).store.region region)[base + addr.toNat % span]? = some value := by
  rw [store_write_of_flat hpage]
  exact m.store.getElem?_poke (h.writeCell_lt hpage) value

/-- The low byte of a word read is a cell. -/
theorem getElem?_readWord (h : m.Carries rom card settings sel) {cell : Nat}
    (hcell : (m.slots.readPage addr).wordCell addr = (region, cell)) :
    (m.store.region region)[cell]? = some (Word.low (m.readWord addr)) := by
  rw [low_readWord hcell]
  exact m.store.getElem?_of_lt (h.readWordCell_lt hcell)

/-- A word write puts the low byte into a cell and the high byte into the next one,
if the region goes on. -/
theorem cells_writeWord (h : m.Carries rom card settings sel) {cell : Nat}
    (hcell : (m.slots.writePage addr).wordCell addr = (region, cell)) (value : Word)
    (r : Region) (i : Nat) :
    ((m.writeWord addr value).store.region r)[i]? =
      if r = region ∧ i = cell then some (Word.low value)
      else if r = region ∧ i = cell + 1 ∧ cell + 1 < (m.store.region region).size then
        some (Word.high value)
      else (m.store.region r)[i]? := by
  have hlt := h.writeWordCell_lt hcell
  rw [store_writeWord hcell, Store.getElem?_region_poke, Store.getElem?_region_poke,
    Store.size_region_poke]
  by_cases hlow : r = region ∧ i = cell
  · -- the high byte is written last, but to another cell
    obtain ⟨rfl, rfl⟩ := hlow
    rw [if_neg (by omega), if_pos ⟨rfl, rfl, hlt⟩, if_pos ⟨rfl, rfl⟩]
  · have hother : ¬(r = region ∧ i = cell ∧ cell < (m.store.region region).size) :=
      fun e => hlow ⟨e.1, e.2.1⟩
    rw [if_neg hother, if_neg hlow]

/-- So its low byte is not dropped. -/
theorem getElem?_writeWord (h : m.Carries rom card settings sel) {cell : Nat}
    (hcell : (m.slots.writePage addr).wordCell addr = (region, cell)) (value : Word) :
    ((m.writeWord addr value).store.region region)[cell]? = some (Word.low value) := by
  rw [h.cells_writeWord hcell, if_pos ⟨rfl, rfl⟩]

end Carries

/-! ### After any run -/

/-- No access of the processor leaves its region.

* `sizes` — the regions have the given sizes;
* `pages` — every page that a slot shows lies inside its region;
* `read`, `write` — a byte access to memory reaches a cell;
* `readWord`, `writeWord` — and so does the low byte of a word access, whatever
  the slot shows. -/
structure StaysInside (size : Region → Nat) (m : Machine) : Prop where
  sizes : ∀ r, (m.store.region r).size = size r
  pages : ∀ s : Fin slotCount, m.slots.readPages[s].Fits size ∧ m.slots.writePages[s].Fits size
  read : ∀ {addr region base span}, m.slots.readPage addr = .flat region base span →
    (m.store.region region)[base + addr.toNat % span]? = some (m.read addr).1
  write : ∀ {addr region base span}, m.slots.writePage addr = .flat region base span →
    ∀ value, ((m.write addr value).store.region region)[base + addr.toNat % span]? = some value
  readWord : ∀ {addr region cell}, (m.slots.readPage addr).wordCell addr = (region, cell) →
    (m.store.region region)[cell]? = some (Word.low (m.readWord addr))
  writeWord : ∀ {addr region cell}, (m.slots.writePage addr).wordCell addr = (region, cell) →
    ∀ value, ((m.writeWord addr value).store.region region)[cell]? = some (Word.low value)

/-- **No access leaves its region, after any run.** -/
theorem staysInside_run (h : powerOn rom card settings = .ok start) (ops : List Op) :
    (start.run ops).StaysInside (layoutOf card settings).regionSize := by
  have hm : (start.run ops).Carries rom card settings _ := carries_of_powerOn h ops
  refine ⟨hm.size, ?_, hm.getElem?_read, hm.getElem?_write, hm.getElem?_readWord,
    hm.getElem?_writeWord⟩
  intro s
  -- the pages of a slot are those of its register in the table
  rw [hm.slots]
  simp only [Slots.ofBanks, Fin.getElem_fin, Vector.getElem_map, hm.table]
  exact ⟨Table.offers_readPage_selected.fits, Table.offers_writePage_selected.fits⟩

/-- On a card whose last page of ROM is a single bank, with that page
selected. -/
theorem staysInside_selectOverRam :
    powerOn largeImage largeCard .standard = .ok (boot largeImage largeCard .standard) ∧
      ((boot largeImage largeCard .standard).run selectOverRam).StaysInside
        (layoutOf largeCard .standard).regionSize :=
  ⟨powerOn_largeCard, staysInside_run powerOn_largeCard selectOverRam⟩

end PcEngine.Machine
