/-
PcEngine/Proofs/Machine/Words.lean

Word accesses against byte accesses.

A word access looks up one page and takes two cells of it; two byte accesses
look up a page each.  Before the last cell of a page the two do the same,
because a page fills the window of its slot a whole number of times
(`Page.FillsWindow`): the next address is in the same slot, and its cell is the
next one.

They part company in two places:

* behind the last cell of a page, where the word goes on to whatever follows
  the page in its region, or to nothing if the region ends there, while bytes go
  to the next slot or back to the first cell of the page;
* at the page register, which only byte writes reach.

Main result: `wordsByBytes`, for every machine that can be reached.
-/
import PcEngine.Proofs.Machine.Extent

namespace PcEngine

/-! ### The next address -/

section

variable {addr : Word} {span : Nat}

/-- Before the last cell of a page comes the next one. -/
theorem mod_add_one {n : Nat} (h : n % span + 1 < span) : (n + 1) % span = n % span + 1 := by
  rw [← Nat.mod_add_mod, Nat.mod_eq_of_lt h]

/-- No repetition of a page starts at the next address, so no window does. -/
theorem not_bankSize_dvd {n : Nat} (hdvd : span ∣ bankSize) (h : n % span + 1 < span) :
    ¬bankSize ∣ n + 1 := by
  intro hbank
  have hzero : (n + 1) % span = 0 := Nat.mod_eq_zero_of_dvd (Nat.dvd_trans hdvd hbank)
  rw [mod_add_one h] at hzero
  exact Nat.succ_ne_zero _ hzero

theorem toNat_add_one (hdvd : span ∣ bankSize) (h : addr.toNat % span + 1 < span) :
    (addr + 1).toNat = addr.toNat + 1 := by
  have hlt := addr.toNat_lt
  -- the address space is eight windows long
  have hend : addr.toNat + 1 ≠ 8 * bankSize := fun e =>
    not_bankSize_dvd hdvd h (e ▸ Nat.dvd_mul_left bankSize 8)
  rw [UInt16.toNat_add]
  simp only [bankSize] at hend
  show (addr.toNat + 1) % 65536 = addr.toNat + 1
  omega

theorem ofAddress_add_one (hdvd : span ∣ bankSize) (h : addr.toNat % span + 1 < span) :
    Slots.ofAddress (addr + 1) = Slots.ofAddress addr := by
  apply Fin.ext
  show (addr + 1).toNat / bankSize = addr.toNat / bankSize
  rw [toNat_add_one hdvd h]
  exact Nat.succ_div_of_not_dvd (not_bankSize_dvd hdvd h)

theorem readPage_add_one (slots : Slots) (hdvd : span ∣ bankSize)
    (h : addr.toNat % span + 1 < span) : slots.readPage (addr + 1) = slots.readPage addr := by
  simp only [Slots.readPage, ofAddress_add_one hdvd h]

theorem writePage_add_one (slots : Slots) (hdvd : span ∣ bankSize)
    (h : addr.toNat % span + 1 < span) : slots.writePage (addr + 1) = slots.writePage addr := by
  simp only [Slots.writePage, ofAddress_add_one hdvd h]

end

namespace Machine

variable {m : Machine} {rom : Array Byte} {card : Card} {settings : Settings}
variable {sel : Option Nat} {addr : Word} {region : Region} {base span : Nat}

/-! ### Single accesses -/

/-- A byte write to memory that misses the page register replaces a cell and
does nothing else. -/
theorem write_of_flat (hpage : m.slots.writePage addr = .flat region base span)
    (hsel : m.selectsRomPage addr = false) (value : Byte) :
    m.write addr value =
      { m with store := m.store.poke region (base + addr.toNat % span) value } := by
  simp only [write, hpage, hsel, Bool.false_eq_true, if_false]

theorem readWord_of_flat (hpage : m.slots.readPage addr = .flat region base span) :
    m.readWord addr = Word.ofBytes (m.store.peek region (base + addr.toNat % span))
      (m.store.peek region (base + addr.toNat % span + 1)) := by
  simp only [readWord, hpage, Page.wordCell]

theorem writeWord_of_flat (hpage : m.slots.writePage addr = .flat region base span)
    (value : Word) :
    m.writeWord addr value = { m with
      store := (m.store.poke region (base + addr.toNat % span) (Word.low value)).poke region
        (base + addr.toNat % span + 1) (Word.high value) } := by
  simp only [writeWord, hpage, Page.wordCell]

/-- A word read looks at its own slot only. -/
theorem readWord_selectBank {slot : Nat} (hslot : Slots.index slot ≠ Slots.ofAddress addr)
    (bank : Byte) : (m.selectBank slot bank).readWord addr = m.readWord addr := by
  have hpage : (m.selectBank slot bank).slots.readPage addr = m.slots.readPage addr := by
    have hne : (Slots.index slot).val ≠ (Slots.ofAddress addr).val := fun e => hslot (Fin.ext e)
    simp only [selectBank, Slots.select, Slots.readPage, Fin.getElem_fin,
      Vector.getElem_set_ne _ _ hne]
  simp only [readWord, hpage]
  rfl

/-! ### Before the last cell of a page -/

theorem readWord_eq_bytes (hpage : m.slots.readPage addr = .flat region base span)
    (hdvd : span ∣ bankSize) (hinner : addr.toNat % span + 1 < span) :
    readWordByBytes read m addr = (m.readWord addr, m) := by
  have hnext : m.slots.readPage (addr + 1) = .flat region base span :=
    (readPage_add_one m.slots hdvd hinner).trans hpage
  have hcell : (addr + 1).toNat % span = addr.toNat % span + 1 := by
    rw [toNat_add_one hdvd hinner, mod_add_one hinner]
  simp only [readWordByBytes, read_of_flat hpage, read_of_flat hnext, readWord_of_flat hpage,
    hcell, Nat.add_assoc]

theorem writeWord_eq_bytes (hpage : m.slots.writePage addr = .flat region base span)
    (hdvd : span ∣ bankSize) (hinner : addr.toNat % span + 1 < span)
    (hlow : m.selectsRomPage addr = false) (hhigh : m.selectsRomPage (addr + 1) = false)
    (value : Word) : writeWordByBytes write m addr value = m.writeWord addr value := by
  have hcell : (addr + 1).toNat % span = addr.toNat % span + 1 := by
    rw [toNat_add_one hdvd hinner, mod_add_one hinner]
  -- the low byte leaves slots and table as they are, so the second look-up is the first
  let stored : Machine :=
    { m with store := m.store.poke region (base + addr.toNat % span) (Word.low value) }
  have hnext : stored.slots.writePage (addr + 1) = .flat region base span :=
    (writePage_add_one m.slots hdvd hinner).trans hpage
  have hmiss : stored.selectsRomPage (addr + 1) = false := hhigh
  rw [writeWordByBytes, write_of_flat hpage hlow, write_of_flat hnext hmiss,
    writeWord_of_flat hpage, Nat.add_assoc, hcell]

/-! ### At the last cell of a page -/

/-- A word access at the last cell of a page.

* `low` — the low byte is the one that a byte read finds;
* `high` — the high byte is the cell behind the page, or the open bus if there
  is none;
* `slots`, `start` — so it is not taken from another slot, nor from the first
  cell of the page. -/
structure ReadsPast (m : Machine) (addr : Word) (region : Region) (base span : Nat) : Prop where
  low : Word.low (m.readWord addr) = (m.read addr).1
  high : Word.high (m.readWord addr) = ((m.store.region region)[base + span]?).getD openBus
  slots : ∀ slot bank, Slots.index slot ≠ Slots.ofAddress addr →
    (m.selectBank slot bank).readWord addr = m.readWord addr
  start : ∀ value, Word.high ({ m with store := m.store.poke region base value }.readWord addr) =
    Word.high (m.readWord addr)

theorem readsPast (hpage : m.slots.readPage addr = .flat region base span)
    (hlast : addr.toNat % span + 1 = span) : m.ReadsPast addr region base span := by
  have hcell : base + addr.toNat % span + 1 = base + span := by rw [Nat.add_assoc, hlast]
  refine ⟨?_, ?_, fun _ bank hslot => readWord_selectBank hslot bank, fun value => ?_⟩
  · rw [readWord_of_flat hpage, Word.low_ofBytes, read_of_flat hpage]
  · rw [readWord_of_flat hpage, Word.high_ofBytes, hcell, Store.peek]
  · have hpoked : Slots.readPage { m with store := m.store.poke region base value }.slots addr =
        .flat region base span := hpage
    -- the page is not empty, so the cell behind it is not its first one
    have hne : ¬(region = region ∧ base + span = base ∧ base < (m.store.region region).size) := by
      omega
    rw [readWord_of_flat hpoked, readWord_of_flat hpage, Word.high_ofBytes, Word.high_ofBytes,
      hcell, Store.peek_poke, if_neg hne]

/-- What a word write at the last cell of a page does.

* `only` — it changes nothing outside the byte-addressed memories;
* `cells` — there it replaces the last cell of the page and the cell behind it,
  if there is one. -/
structure WritesPast (m : Machine) (addr : Word) (region : Region) (base span : Nat)
    (value : Word) : Prop where
  only : m.writeWord addr value = { m with
    store := { (m.writeWord addr value).store with vram := m.store.vram } }
  cells : ∀ r cell, ((m.writeWord addr value).store.region r)[cell]? =
    if r = region ∧ cell = base + (span - 1) then some (Word.low value)
    else if r = region ∧ cell = base + span ∧ base + span < (m.store.region region).size then
      some (Word.high value)
    else (m.store.region r)[cell]?

theorem Carries.writesPast (h : m.Carries rom card settings sel)
    (hpage : m.slots.writePage addr = .flat region base span)
    (hlast : addr.toNat % span + 1 = span) (value : Word) :
    m.WritesPast addr region base span value := by
  have hlow : base + addr.toNat % span = base + (span - 1) := by omega
  have hhigh : base + (span - 1) + 1 = base + span := by omega
  have hcell : (m.slots.writePage addr).wordCell addr = (region, base + (span - 1)) := by
    rw [hpage, Page.wordCell, hlow]
  constructor
  · rw [writeWord_of_flat hpage, ← Store.vram_poke m.store region (base + addr.toNat % span)
      (Word.low value), ← Store.vram_poke _ region (base + addr.toNat % span + 1) (Word.high value)]
  · intro r cell
    rw [h.cells_writeWord hcell, hhigh]

/-! ### Every machine that can be reached -/

/-- Word accesses at an address, told by byte accesses.

* `read`, `write` — before the last cell of a page a word is two bytes, low byte
  first, if neither byte write hits the page register; a read changes nothing;
* `readLast`, `writeLast` — at the last cell it goes on behind the page. -/
structure WordsByBytes (m : Machine) (addr : Word) : Prop where
  read : ∀ {region base span}, m.slots.readPage addr = .flat region base span →
    addr.toNat % span < span - 1 →
    readWordByBytes AddressSpace.read m addr = AddressSpace.readWord m addr ∧
      (AddressSpace.readWord m addr).2 = m
  readLast : ∀ {region base span}, m.slots.readPage addr = .flat region base span →
    addr.toNat % span = span - 1 → m.ReadsPast addr region base span
  write : ∀ {region base span}, m.slots.writePage addr = .flat region base span →
    addr.toNat % span < span - 1 →
    m.selectsRomPage addr = false → m.selectsRomPage (addr + 1) = false →
    ∀ value, writeWordByBytes AddressSpace.write m addr value =
      AddressSpace.writeWord m addr value
  writeLast : ∀ {region base span}, m.slots.writePage addr = .flat region base span →
    addr.toNat % span = span - 1 → ∀ value, m.WritesPast addr region base span value

namespace Carries

theorem span_dvd_of_readPage (h : m.Carries rom card settings sel)
    (hpage : m.slots.readPage addr = .flat region base span) : span ∣ bankSize := by
  have hfills : (m.slots.readPage addr).FillsWindow := by
    rw [h.readPage_eq]
    exact Table.offers_readPage_selected.fillsWindow
  rw [hpage] at hfills
  exact hfills

theorem span_dvd_of_writePage (h : m.Carries rom card settings sel)
    (hpage : m.slots.writePage addr = .flat region base span) : span ∣ bankSize := by
  have hfills : (m.slots.writePage addr).FillsWindow := by
    rw [h.writePage_eq]
    exact Table.offers_writePage_selected.fillsWindow
  rw [hpage] at hfills
  exact hfills

end Carries

/-- **Word accesses agree with byte accesses**, except at the last cell of a
page and at the page register. -/
theorem wordsByBytes (h : m.Reachable) (addr : Word) : m.WordsByBytes addr := by
  obtain ⟨rom, card, settings, sel, hm⟩ := h.carries
  have hpos : ∀ {span : Nat}, span ∣ bankSize → 0 < span := fun hdvd =>
    Nat.pos_of_dvd_of_pos hdvd (by decide)
  constructor
  · intro region base span hpage hinner
    have hdvd := hm.span_dvd_of_readPage hpage
    exact ⟨readWord_eq_bytes hpage hdvd (by omega), rfl⟩
  · intro region base span hpage hlast
    have hspan := hpos (hm.span_dvd_of_readPage hpage)
    exact readsPast hpage (by omega)
  · intro region base span hpage hinner hlow hhigh value
    have hdvd := hm.span_dvd_of_writePage hpage
    exact writeWord_eq_bytes hpage hdvd (by omega) hlow hhigh value
  · intro region base span hpage hlast value
    have hspan := hpos (hm.span_dvd_of_writePage hpage)
    exact hm.writesPast hpage (by omega) value

/-- At the last address, through a slot that shows the end of the image's first
bank, on a card with a page selected. -/
theorem wordsByBytes_selectOverRam :
    let m := (boot largeImage largeCard .standard).run selectOverRam
    m.Reachable ∧ m.WordsByBytes 0xFFFF := by
  have h := reachable_run .standard validate_largeCard selectOverRam
  exact ⟨h, wordsByBytes h 0xFFFF⟩

end Machine

end PcEngine
