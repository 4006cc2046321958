/-
PcEngine/Proofs/Checked/Banks.lean

Bank switching and memory accesses never fail.

The bank table is computed from the layout of the card: banks of ROM are repeated by
divisions and differences, and every bank is multiplied by its size to find its first
cell.  None of this leaves the memories, so no more is needed than that an index can
count their cells (`Layout.Countable`); this holds of every memory that exists.

The look-ups of the slots, of the table and of cells are checked, too.  A word access
asks for the cell behind its low byte, which need not exist; there the open bus is the
proper result, and only the number of the cell is checked.
-/
import PcEngine.Machine.Access
import PcEngine.Proofs.Bank.Extent
import PcEngine.Proofs.Checked.Basic
import PcEngine.Proofs.Store.Frame

namespace PcEngine

variable {limit : Nat}

/-! ### The pages of a card -/

/-- An index can count the cells of every memory of a machine with a card. -/
structure Layout.Countable (limit : Nat) (l : Layout) : Prop where
  vram : vramSize < limit
  region : ∀ r, l.regionSize r < limit

/-- A whole bank of a region. -/
def Page.checkedBank (limit : Nat) (region : Region) (block : Nat) : Checked Page := do
  return .flat region (← Checked.mul limit block bankSize) bankSize

/-- The bank that answers for a number past the end of an image.  The power of two
below an image of two chips is half of the one above it. -/
def checkedRepeatedBank (limit number banks : Nat) : Checked (Option Nat) := do
  if banks = 0 then return none
  else if banks = floorPow2 banks then return some (← Checked.mod number banks)
  else
    let above ← Checked.mul limit (floorPow2 banks) 2
    let lower := above / 2
    let upper ← Checked.sub banks lower
    let line := number % 128
    if line < 64 then return some (← Checked.mod line lower)
    else
      let rest ← Checked.mod (← Checked.sub line 64) upper
      return some (← Checked.add limit rest lower)

theorem Page.checkedBank_eq {region : Region} {block blocks : Nat} (h : block < blocks)
    (hsize : blocks * bankSize < limit) :
    checkedBank limit region block = .ok (bank region block) := by
  have hblock : block * bankSize < limit :=
    Nat.lt_of_le_of_lt (Nat.mul_le_mul_right bankSize (Nat.le_of_lt h)) hsize
  rw [checkedBank, Checked.mul_ok hblock]
  rfl

/-- Nothing is added up for a power of two of banks; of any other number, not much more
than it is asked for. -/
theorem checkedRepeatedBank_eq {number banks : Nat}
    (hsize : banks = floorPow2 banks ∨ banks * 2 < limit) :
    checkedRepeatedBank limit number banks = .ok (repeatedBank number banks) := by
  by_cases hzero : banks = 0
  · simp only [checkedRepeatedBank, repeatedBank, if_pos hzero, Checked.pure_eq_ok]
  · have hle := floorPow2_le hzero
    have hpos := floorPow2_pos banks
    by_cases hpow : banks = floorPow2 banks
    · simp only [checkedRepeatedBank, repeatedBank, if_neg hzero, if_pos hpow,
        Checked.mod_ok (Nat.pos_of_ne_zero hzero), Checked.ok_bind, Checked.pure_eq_ok]
    · -- two chips, neither of them empty
      have hsize := hsize.resolve_left hpow
      have hupper : 0 < banks - floorPow2 banks := by omega
      have habove : floorPow2 banks * 2 < limit := by omega
      have hhalf : floorPow2 banks * 2 / 2 = floorPow2 banks :=
        Nat.mul_div_cancel _ Nat.zero_lt_two
      simp only [checkedRepeatedBank, repeatedBank, if_neg hzero, if_neg hpow,
        Checked.mul_ok habove, hhalf, Checked.sub_ok hle, Checked.mod_ok hpos,
        Checked.mod_ok hupper, Checked.ok_bind, Checked.pure_eq_ok]
      by_cases hline : number % 128 < 64
      · rw [if_pos hline, if_pos hline]
      · have hrest := Nat.mod_lt (number % 128 - 64) hupper
        have hsum : (number % 128 - 64) % (banks - floorPow2 banks) + floorPow2 banks < limit := by
          omega
        simp only [if_neg hline, Checked.sub_ok (Nat.le_of_not_lt hline), Checked.ok_bind,
          Checked.add_ok hsum]

namespace Layout

/-- The bank of ROM that a number reads. -/
def checkedRomBank? (limit : Nat) (l : Layout) (number : Nat) : Checked (Option Nat) :=
  if number < l.romBanks then return some number
  else if l.repeatRom then checkedRepeatedBank limit number l.romBanks
  else return none

/-- The bank of card RAM that a number points to. -/
def checkedExtraBank? (limit : Nat) (l : Layout) (number : Nat) : Checked (Option Nat) := do
  let reach ← Checked.sub romBankLimit firstExtraRamBank
  let stop ← Checked.add limit firstExtraRamBank (min l.extraBanks reach)
  if firstExtraRamBank ≤ number ∧ number < stop then
    return some (← Checked.sub number firstExtraRamBank)
  else return none

/-- What reading through a bank number sees. -/
def checkedReadPage (limit : Nat) (l : Layout) (number : Nat) : Checked Page := do
  match fixedPage? number, ← l.checkedExtraBank? limit number with
  | some page, _ => return page
  | none, some block => Page.checkedBank limit .extraRam block
  | none, none =>
    if number < romBankLimit then
      match ← l.checkedRomBank? limit number with
      | some block => Page.checkedBank limit .rom block
      | none => return .sink
    else return .sink

/-- What writing through a bank number reaches. -/
def checkedWritePage (limit : Nat) (l : Layout) (number : Nat) : Checked Page := do
  match fixedPage? number, ← l.checkedExtraBank? limit number with
  | some page, _ => return page
  | none, some block => Page.checkedBank limit .extraRam block
  | none, none => return .sink

/-- What a bank number of the moved window reads once a page has been selected. -/
def checkedRomPage (limit : Nat) (l : Layout) (page number : Nat) : Checked Page := do
  let first ← Checked.mul limit romWindowBanks (← Checked.add limit page 1)
  let block ← Checked.add limit first (← Checked.sub number romWindowFirst)
  if block < l.romBanks then Page.checkedBank limit .rom block else return .sink

namespace Countable

variable {l : Layout}

theorem checkedRomBank?_eq (h : l.Countable limit) (number : Nat) :
    l.checkedRomBank? limit number = .ok (l.romBank? number) := by
  have hrom : l.romBanks * bankSize < limit := h.region .rom
  have hdouble : l.romBanks * 2 < limit := by
    simp only [bankSize] at hrom
    omega
  simp only [checkedRomBank?, romBank?, checkedRepeatedBank_eq (.inr hdouble),
    Checked.pure_eq_ok]
  split
  · rfl
  · split <;> rfl

theorem checkedExtraBank?_eq (h : l.Countable limit) (number : Nat) :
    l.checkedExtraBank? limit number = .ok (l.extraBank? number) := by
  have hle : firstExtraRamBank ≤ romBankLimit := by decide
  have hsmall : firstExtraRamBank + (romBankLimit - firstExtraRamBank) < vramSize := by decide
  have hvram := h.vram
  have hsum : firstExtraRamBank + min l.extraBanks (romBankLimit - firstExtraRamBank) < limit := by
    omega
  simp only [checkedExtraBank?, extraBank?, Checked.sub_ok hle, Checked.add_ok hsum,
    Checked.ok_bind, Checked.pure_eq_ok]
  split
  · rename_i hnumber
    rw [Checked.sub_ok hnumber.1]
    rfl
  · rfl

theorem checkedReadPage_eq (h : l.Countable limit) (number : Nat) :
    l.checkedReadPage limit number = .ok (l.readPage number) := by
  rw [checkedReadPage, h.checkedExtraBank?_eq, Checked.ok_bind, readPage]
  rcases hf : fixedPage? number with - | page
  · rcases hx : l.extraBank? number with - | block
    · simp only [h.checkedRomBank?_eq, Checked.ok_bind, Checked.pure_eq_ok]
      split
      · rcases hr : l.romBank? number with - | block
        · rfl
        · exact Page.checkedBank_eq (romBank?_lt hr) (h.region .rom)
      · rfl
    · exact Page.checkedBank_eq (extraBank?_lt hx) (h.region .extraRam)
  · rfl

theorem checkedWritePage_eq (h : l.Countable limit) (number : Nat) :
    l.checkedWritePage limit number = .ok (l.writePage number) := by
  rw [checkedWritePage, h.checkedExtraBank?_eq, Checked.ok_bind, writePage]
  rcases hf : fixedPage? number with - | page
  · rcases hx : l.extraBank? number with - | block
    · rfl
    · exact Page.checkedBank_eq (extraBank?_lt hx) (h.region .extraRam)
  · rfl

/-- The page register selects one of four pages. -/
theorem checkedRomPage_eq (h : l.Countable limit) {page number : Nat} (hpage : page < 4)
    (hnumber : romWindowFirst ≤ number ∧ number < romWindowFirst + romWindowBanks) :
    l.checkedRomPage limit page number = .ok (l.romPage page number) := by
  have hvram := h.vram
  have hblock : romWindowBanks * (page + 1) + (number - romWindowFirst) < limit := by
    simp only [romWindowBanks, romWindowFirst, vramSize, vramWords] at *
    omega
  have hone : page + 1 < limit := by
    simp only [vramSize, vramWords] at *
    omega
  have hfirst : romWindowBanks * (page + 1) < limit := by omega
  simp only [checkedRomPage, romPage, Checked.add_ok hone, Checked.mul_ok hfirst,
    Checked.sub_ok hnumber.1, Checked.add_ok hblock, Checked.ok_bind, Checked.pure_eq_ok]
  split
  · rename_i hrom
    exact Page.checkedBank_eq hrom (h.region .rom)
  · rfl

end Countable

end Layout

/-! ### The bank table -/

namespace Table

/-- The table of a card. -/
def checkedOfLayout (limit : Nat) (l : Layout) : Checked Table := do
  let read ← Vector.ofFnM fun i => l.checkedReadPage limit i.val
  let write ← Vector.ofFnM fun i => l.checkedWritePage limit i.val
  return { read := read, write := write, layout := l }

/-- Make the numbers `$40-$7F` read the banks of a page. -/
def checkedSelectRomPage (limit : Nat) (t : Table) (page : Nat) : Checked Table := do
  let read ← Vector.ofFnM fun i =>
    if romWindowFirst ≤ i.val ∧ i.val < romWindowFirst + romWindowBanks then
      t.layout.checkedRomPage limit page i.val
    else return t.read.get i
  return { t with read := read }

/-- What reading through a bank number sees. -/
def checkedReadPage (t : Table) (number : Byte) : Checked Page :=
  Checked.get t.read number.toNat

/-- What writing through a bank number reaches. -/
def checkedWritePage (t : Table) (number : Byte) : Checked Page :=
  Checked.get t.write number.toNat

theorem checkedOfLayout_eq {l : Layout} (h : l.Countable limit) :
    checkedOfLayout limit l = .ok (ofLayout l) := by
  simp only [checkedOfLayout, h.checkedReadPage_eq, h.checkedWritePage_eq, Checked.ofFnM_ok,
    Checked.ok_bind, Checked.pure_eq_ok, ofLayout]

theorem checkedSelectRomPage_eq {t : Table} (h : t.layout.Countable limit) {page : Nat}
    (hpage : page < 4) : t.checkedSelectRomPage limit page = .ok (t.selectRomPage page) := by
  have hentry : ∀ i : Fin bankCount,
      (if romWindowFirst ≤ i.val ∧ i.val < romWindowFirst + romWindowBanks then
        t.layout.checkedRomPage limit page i.val
      else .ok (t.read.get i)) =
      .ok (if romWindowFirst ≤ i.val ∧ i.val < romWindowFirst + romWindowBanks then
        t.layout.romPage page i.val
      else t.read.get i) := by
    intro i
    split
    · rename_i hnumber
      exact h.checkedRomPage_eq hpage hnumber
    · rfl
  simp only [checkedSelectRomPage, Checked.pure_eq_ok, hentry, Checked.ofFnM_ok, Checked.ok_bind]
  rfl

theorem checkedReadPage_eq (t : Table) (number : Byte) :
    t.checkedReadPage number = .ok (t.readPage number) :=
  Checked.get_ok number.toNat_lt

theorem checkedWritePage_eq (t : Table) (number : Byte) :
    t.checkedWritePage number = .ok (t.writePage number) :=
  Checked.get_ok number.toNat_lt

end Table

/-! ### Slots -/

namespace Slots

/-- Look up every slot's pages in the bank table. -/
def checkedOfBanks (t : Table) (banks : Vector Byte slotCount) : Checked Slots := do
  let readPages ← banks.mapM t.checkedReadPage
  let writePages ← banks.mapM t.checkedWritePage
  return { banks := banks, readPages := readPages, writePages := writePages }

/-- Make slot `n` show a bank; only three bits of `n` count. -/
def checkedSelect (s : Slots) (t : Table) (n : Nat) (bank : Byte) : Checked Slots := do
  let slot := n % slotCount
  let banks ← Checked.set s.banks slot bank
  let readPages ← Checked.set s.readPages slot (← t.checkedReadPage bank)
  let writePages ← Checked.set s.writePages slot (← t.checkedWritePage bank)
  return { banks := banks, readPages := readPages, writePages := writePages }

/-- The page that reading at an address sees. -/
def checkedReadPage (s : Slots) (addr : Word) : Checked Page :=
  Checked.get s.readPages (addr.toNat / bankSize)

/-- The page that writing at an address reaches. -/
def checkedWritePage (s : Slots) (addr : Word) : Checked Page :=
  Checked.get s.writePages (addr.toNat / bankSize)

theorem checkedOfBanks_eq (t : Table) (banks : Vector Byte slotCount) :
    checkedOfBanks t banks = .ok (ofBanks t banks) := by
  have hread : t.checkedReadPage = fun number => .ok (t.readPage number) :=
    funext t.checkedReadPage_eq
  have hwrite : t.checkedWritePage = fun number => .ok (t.writePage number) :=
    funext t.checkedWritePage_eq
  simp only [checkedOfBanks, hread, hwrite, Checked.mapM_ok, Checked.ok_bind,
    Checked.pure_eq_ok, ofBanks]

theorem checkedSelect_eq (s : Slots) (t : Table) (n : Nat) (bank : Byte) :
    s.checkedSelect t n bank = .ok (s.select t n bank) := by
  have hslot : n % slotCount < slotCount := Nat.mod_lt n (by decide)
  simp only [checkedSelect, Checked.set_ok hslot, Table.checkedReadPage_eq,
    Table.checkedWritePage_eq, Checked.ok_bind]
  rfl

theorem checkedReadPage_eq (s : Slots) (addr : Word) :
    s.checkedReadPage addr = .ok (s.readPage addr) :=
  Checked.get_ok (ofAddress addr).isLt

theorem checkedWritePage_eq (s : Slots) (addr : Word) :
    s.checkedWritePage addr = .ok (s.writePage addr) :=
  Checked.get_ok (ofAddress addr).isLt

end Slots

/-! ### Cells -/

/-- The cell at which a word access at an address starts. -/
def Page.checkedWordCell (limit : Nat) (page : Page) (addr : Word) : Checked (Region × Nat) := do
  match page with
  | .flat region base span => return (region, ← Checked.add limit base (addr.toNat % span))
  | .hardware => return (.sink, ← Checked.add limit trapOffset (addr.toNat % bankSize))

theorem Page.checkedWordCell_eq {page : Page} {addr : Word} {region : Region} {cell : Nat}
    (hcell : page.wordCell addr = (region, cell)) (hlt : cell < limit) :
    page.checkedWordCell limit addr = .ok (region, cell) := by
  cases page with
  | flat region base span | hardware =>
    cases hcell
    rw [checkedWordCell, Checked.add_ok hlt]
    rfl

namespace Store

/-- Cell `i` of a region, which has to exist. -/
def checkedPeek (s : Store) (r : Region) (i : Nat) : Checked Byte :=
  match (s.region r)[i]? with
  | some b => .ok b
  | none => .error .index

/-- Replace cell `i` of a region, which has to exist. -/
def checkedPoke (s : Store) (r : Region) (i : Nat) (b : Byte) : Checked Store :=
  if i < (s.region r).size then .ok (s.poke r i b) else .error .index

/-- Put saved bytes at the start of backup RAM, as many as there are and as fit. -/
def checkedRestoreBackup (s : Store) (data : Array Byte) : Checked Store := do
  let n := min data.size s.backupRam.size
  let saved ← Checked.take data n
  let old ← Checked.take s.backupRam n
  return { s with backupRam := saved ++ s.backupRam.extract old.size s.backupRam.size }

variable {s : Store} {r : Region} {i : Nat}

theorem checkedPeek_ok (h : i < (s.region r).size) : s.checkedPeek r i = .ok (s.peek r i) := by
  rw [checkedPeek, s.getElem?_of_lt h]

theorem checkedPoke_ok (h : i < (s.region r).size) (b : Byte) :
    s.checkedPoke r i b = .ok (s.poke r i b) := if_pos h

theorem checkedRestoreBackup_eq (s : Store) (data : Array Byte) :
    s.checkedRestoreBackup data = .ok (s.restoreBackup data) := by
  have hold : (s.backupRam.extract 0 (min data.size s.backupRam.size)).size =
      min data.size s.backupRam.size := by
    rw [Array.size_extract, Nat.min_assoc, Nat.min_self, Nat.sub_zero]
  simp only [checkedRestoreBackup, Checked.take_ok (Nat.min_le_left _ _),
    Checked.take_ok (Nat.min_le_right _ _), Checked.ok_bind, Checked.pure_eq_ok, hold,
    restoreBackup]

end Store

end PcEngine
