/-
PcEngine/Proofs/Machine/Cells.lean

Byte accesses to memory, told by cells.

A byte access to memory means one cell of one region (`Page.cell?`, `readCell`), and
many addresses mean the same one: four numbers show work RAM, backup RAM fills
its window four times, every slot can show every number, and all unmapped
numbers and all writes to ROM share the sink.

Which addresses these are can be told exactly, because the pages of a card do not
overlap: regions are cut into whole banks, and backup RAM is a page of its own
(`Layout.Offers.flat_cases`).  So two pages that have a cell in common are the
same page (`Layout.Offers.eq_of_cell_eq`), and two addresses mean the same cell
if they see the same page and are the same distance from the start of a
repetition of it (`Carries.readCell_eq_iff`).

Main result: a byte write to memory that misses the page register replaces one
cell and nothing else, and is read back at the addresses of that cell only
(`byteWrite_replacesCell`), on every machine that can be reached.
-/
import PcEngine.Proofs.Machine.Words

namespace PcEngine

/-! ### The cells of a page -/

/-- The cell that an address means on a page; on the hardware page it means
none. -/
def Page.cell? (page : Page) (addr : Word) : Option (Region × Nat) :=
  match page with
  | .flat region base span => some (region, base + addr.toNat % span)
  | .hardware => none

namespace Layout.Offers

variable {l : Layout} {region : Region} {base span base' span' : Nat}

/-- Backup RAM is one page, and the other regions are cut into banks. -/
theorem flat_cases (h : l.Offers (.flat region base span)) :
    region = .backupRam ∧ base = 0 ∧ span = backupRamSize ∨
      region ≠ .backupRam ∧ span = bankSize ∧ ∃ block, base = block * bankSize := by
  cases h with
  | backup => exact .inl ⟨rfl, rfl, rfl⟩
  | sink | ram | rom | extraRam => exact .inr ⟨Region.noConfusion, rfl, _, rfl⟩

/-- Pages with a cell in common are the same page. -/
theorem eq_of_cell_eq (h : l.Offers (.flat region base span))
    (h' : l.Offers (.flat region base' span')) {a b : Nat}
    (hcell : base + a % span = base' + b % span') : base = base' ∧ span = span' := by
  rcases h.flat_cases with ⟨hr, rfl, rfl⟩ | ⟨hr, rfl, block, rfl⟩ <;>
    rcases h'.flat_cases with ⟨hr', rfl, rfl⟩ | ⟨hr', rfl, block', rfl⟩
  · exact ⟨rfl, rfl⟩
  · exact absurd hr hr'
  · exact absurd hr' hr
  · -- a remainder is less than a bank, so it cannot make up for another bank
    have ha := Nat.mod_lt a (y := bankSize) (by decide)
    have hb := Nat.mod_lt b (y := bankSize) (by decide)
    generalize a % bankSize = i at *
    generalize b % bankSize = j at *
    have hblock : block = block' := by
      simp only [bankSize] at *
      omega
    rw [hblock]
    exact ⟨rfl, rfl⟩

end Layout.Offers

namespace Table

variable {l : Layout} {sel : Option Nat} {number : Byte} {page : Page}

/-- A fixed page stays where it is, whatever the card has and whatever is
selected. -/
theorem readPage_selected_of_fixedPage? (h : Layout.fixedPage? number.toNat = some page) :
    (selected l sel).readPage number = page := by
  have hwindow : ¬InWindow number := fun hw => by
    rw [fixedPage?_of_inWindow hw] at h
    cases h
  rw [readPage_selected_of_not_inWindow hwindow]
  simp only [Layout.readPage, h]

theorem writePage_selected_of_fixedPage? (h : Layout.fixedPage? number.toNat = some page) :
    (selected l sel).writePage number = page := by
  simp only [writePage_selected, Layout.writePage, h]

end Table

namespace Machine

variable {m : Machine} {rom : Array Byte} {card : Card} {settings : Settings}
variable {sel : Option Nat} {addr b : Word} {region : Region} {base span : Nat}

/-- The cell that reading at an address looks up; a device has none. -/
def readCell (m : Machine) (addr : Word) : Option (Region × Nat) :=
  (m.slots.readPage addr).cell? addr

theorem read_of_readCell {cell : Region × Nat} (h : m.readCell addr = some cell) :
    m.read addr = (m.store.peek cell.1 cell.2, m) := by
  rcases hpage : m.slots.readPage addr with ⟨region, base, span⟩ | -
  · rw [readCell, hpage] at h
    cases h
    exact read_of_flat hpage
  · rw [readCell, hpage] at h
    cases h

/-! ### Addresses of one cell -/

namespace Carries

theorem offers_readPage (h : m.Carries rom card settings sel) (addr : Word) :
    (layoutOf card settings).Offers (m.slots.readPage addr) := by
  rw [h.readPage_eq]
  exact Table.offers_readPage_selected

theorem offers_writePage (h : m.Carries rom card settings sel) (addr : Word) :
    (layoutOf card settings).Offers (m.slots.writePage addr) := by
  rw [h.writePage_eq]
  exact Table.offers_writePage_selected

/-- The addresses at which a cell that was written can be read. -/
theorem readCell_eq_iff (h : m.Carries rom card settings sel)
    (hpage : m.slots.writePage addr = .flat region base span) :
    m.readCell b = some (region, base + addr.toNat % span) ↔
      m.slots.readPage b = .flat region base span ∧
        b.toNat % span = addr.toNat % span := by
  constructor
  · intro hcell
    have hwrite := h.offers_writePage addr
    have hread := h.offers_readPage b
    rw [readCell] at hcell
    rcases hb : m.slots.readPage b with ⟨region', base', span'⟩ | -
    · rw [hb, Page.cell?] at hcell
      obtain ⟨rfl, hsame⟩ := Prod.mk.inj (Option.some.inj hcell)
      rw [hpage] at hwrite
      rw [hb] at hread
      obtain ⟨rfl, rfl⟩ := hread.eq_of_cell_eq hwrite hsame
      exact ⟨rfl, Nat.add_left_cancel hsame⟩
    · rw [hb] at hcell
      cases hcell
  · rintro ⟨hb, hmod⟩
    rw [readCell, hb, Page.cell?, hmod]

/-- In slots that show the same fixed page, whichever numbers they show it by, the
addresses of a cell are those of its repetitions. -/
theorem readCell_eq_iff_of_fixedPage? {r : Region} {start size : Nat}
    (h : m.Carries rom card settings sel)
    (hpage : m.slots.writePage addr = .flat region base span)
    (haddr : Layout.fixedPage? (m.slots.bankAt addr).toNat = some (.flat r start size))
    (hb : Layout.fixedPage? (m.slots.bankAt b).toNat = some (.flat r start size)) :
    m.readCell b = some (region, base + addr.toNat % span) ↔
      b.toNat % size = addr.toNat % size := by
  rw [h.readCell_eq_iff hpage, h.readPage_eq, Table.readPage_selected_of_fixedPage? hb]
  rw [h.writePage_eq, Table.writePage_selected_of_fixedPage? haddr] at hpage
  cases hpage
  exact and_iff_right rfl

end Carries

/-! ### A byte written -/

/-- Whether a slot shows work RAM. -/
def ShowsRam (m : Machine) (addr : Word) : Prop :=
  firstRamBank ≤ (m.slots.bankAt addr).toNat ∧ (m.slots.bankAt addr).toNat ≤ lastRamBank

/-- Whether a slot shows backup RAM. -/
def ShowsBackup (m : Machine) (addr : Word) : Prop :=
  (m.slots.bankAt addr).toNat = backupRamBank

theorem ShowsRam.fixedPage? (h : m.ShowsRam addr) :
    Layout.fixedPage? (m.slots.bankAt addr).toNat = some (.bank .ram 0) := by
  have hbackup : (m.slots.bankAt addr).toNat ≠ backupRamBank := fun e => by
    rw [ShowsRam, e] at h
    exact absurd h (by decide)
  rw [Layout.fixedPage?, if_neg hbackup]
  exact if_pos h

theorem ShowsBackup.fixedPage? (h : m.ShowsBackup addr) :
    Layout.fixedPage? (m.slots.bankAt addr).toNat = some .backup := by
  rw [Layout.fixedPage?]
  exact if_pos h

/-- What a byte write does at an address whose page is
`.flat region base span`.

* `only`, `cells`, `vram` — it changes nothing but byte-addressed memory, and there
  one cell of one region, which then holds the byte;
* `read` — a byte read of memory finds the byte at every address of that cell and
  what it found before at every other one, and still changes nothing;
* `addresses` — the addresses of that cell are those that see the same page, the
  same distance from the start of a repetition of it;
* `ram`, `backup` — these are every 8192nd address in slots that show work RAM by
  any of its numbers, and every 2048th in slots that show backup RAM. -/
structure WritesCell (m : Machine) (addr : Word) (region : Region) (base span : Nat)
    (value : Byte) : Prop where
  only : m.write addr value =
    { m with store := m.store.poke region (base + addr.toNat % span) value }
  cells : ∀ r cell, ((m.write addr value).store.region r)[cell]? =
    if r = region ∧ cell = base + addr.toNat % span then some value
    else (m.store.region r)[cell]?
  vram : (m.write addr value).store.vram = m.store.vram
  read : ∀ b cell, m.readCell b = some cell →
    (m.write addr value).read b =
      (if cell = (region, base + addr.toNat % span) then value else (m.read b).1,
        m.write addr value)
  addresses : ∀ b, m.readCell b = some (region, base + addr.toNat % span) ↔
    m.slots.readPage b = m.slots.writePage addr ∧ b.toNat % span = addr.toNat % span
  ram : m.ShowsRam addr → ∀ b, m.ShowsRam b →
    (m.readCell b = some (region, base + addr.toNat % span) ↔
      b.toNat % ramSize = addr.toNat % ramSize)
  backup : m.ShowsBackup addr → ∀ b, m.ShowsBackup b →
    (m.readCell b = some (region, base + addr.toNat % span) ↔
      b.toNat % backupRamSize = addr.toNat % backupRamSize)

theorem Carries.writesCell (h : m.Carries rom card settings sel)
    (hpage : m.slots.writePage addr = .flat region base span)
    (hsel : m.selectsRomPage addr = false) (value : Byte) :
    m.WritesCell addr region base span value := by
  have hwrite := write_of_flat hpage hsel value
  have hlt := h.writeCell_lt hpage
  refine ⟨hwrite, ?_, ?_, ?_, ?_, ?_, ?_⟩
  · intro r cell
    rw [hwrite, Store.getElem?_region_poke]
    simp only [hlt, and_true]
  · rw [hwrite, Store.vram_poke]
  · intro b cell hcell
    -- slots are as before, so an address means the cell that it meant
    have hafter : (m.write addr value).readCell b = some cell := by
      rw [hwrite]
      exact hcell
    rw [read_of_readCell hafter, read_of_readCell hcell, hwrite, Store.peek_poke]
    simp only [hlt, and_true, Prod.ext_iff]
  · intro b
    rw [h.readCell_eq_iff hpage, hpage]
  · intro haddr b hb
    exact h.readCell_eq_iff_of_fixedPage? hpage haddr.fixedPage? hb.fixedPage?
  · intro haddr b hb
    exact h.readCell_eq_iff_of_fixedPage? hpage haddr.fixedPage? hb.fixedPage?

/-- **A byte write replaces one cell**, and is read back at the addresses of that
cell only. -/
theorem byteWrite_replacesCell (h : m.Reachable) (hpage : m.slots.writePage addr = .flat region base span)
    (hsel : m.selectsRomPage addr = false) (value : Byte) :
    m.WritesCell addr region base span value := by
  obtain ⟨rom, card, settings, sel, hm⟩ := h.carries
  exact hm.writesCell hpage hsel value

/-- In the second repetition of backup RAM. -/
theorem byteWrite_replacesCell_backup :
    let m := (boot largeImage largeCard .standard).run [.selectBank 3 0xF7]
    m.Reachable ∧ m.slots.writePage 0x6800 = .flat .backupRam 0 backupRamSize ∧
      m.selectsRomPage 0x6800 = false ∧ m.ShowsBackup 0x6800 ∧
      m.WritesCell 0x6800 .backupRam 0 backupRamSize 0x5A := by
  intro m
  have h : m.Reachable := reachable_run .standard validate_largeCard _
  have hm := carries_of_powerOn powerOn_largeCard [.selectBank 3 0xF7]
  have hshows : m.ShowsBackup 0x6800 := rfl
  have hread : m.slots.readPage 0x6800 = .backup := by
    rw [hm.readPage_eq, Table.readPage_selected_of_fixedPage? hshows.fixedPage?]
  have hwrite : m.slots.writePage 0x6800 = .backup := by
    rw [hm.writePage_eq, Table.writePage_selected_of_fixedPage? hshows.fixedPage?]
  have hsel : m.selectsRomPage 0x6800 = false := by
    refine selectsRomPage_of_isRom ?_
    rw [hread]
    rfl
  exact ⟨h, hwrite, hsel, hshows, byteWrite_replacesCell h hwrite hsel 0x5A⟩

end Machine

end PcEngine
