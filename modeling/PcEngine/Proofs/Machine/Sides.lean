/-
PcEngine/Proofs/Machine/Sides.lean

The two sides of a bank number, after any run.

A number reads one page and writes another.  Where the two belong together
(`SidesAgree`) a write can be read back at its address, or it changes nothing
but the sink (`Carries.coherent`).

The page register breaks this.  It moves the numbers `$40-$7F` to another page
of ROM on the read side only, so a number of card RAM then reads ROM and still
writes card RAM: a write through it lands in a cell that the number no longer
shows (`Carries.hides`).  This is the only way out of step
(`Carries.sidesAgree_iff`), and it takes a card that has both the register and
RAM; on all others the sides agree for ever.
-/
import PcEngine.Proofs.Machine.Extent

namespace PcEngine.Machine

variable {m start : Machine} {rom : Array Byte} {card : Card} {settings : Settings}
variable {sel : Option Nat} {addr : Word} {region : Region} {base span : Nat}

/-! ### What it means to be in step -/

/-- The two sides of a number belong together: it reads and writes the same
page, or reads ROM and writes the sink. -/
def SidesAgree (m : Machine) (number : Byte) : Prop :=
  (m.table.readPage number).Agree (m.table.writePage number)

/-- `m'` has the memories of `m`, the sink excepted. -/
def KeepsMemory (m m' : Machine) : Prop :=
  ∀ r, r ≠ .sink → m'.store.region r = m.store.region r

/-- Writes at an address can be read back there, or change nothing but the
sink.  The high byte of a word is lost, and reads as the open bus, if the low
byte has the last cell of its region. -/
structure Coherent (m : Machine) (addr : Word) : Prop where
  byte : ∀ value, ((m.write addr value).read addr).1 = value ∨ m.KeepsMemory (m.write addr value)
  word : ∀ {region cell}, (m.slots.writePage addr).wordCell addr = (region, cell) → ∀ value,
    (m.writeWord addr value).readWord addr = Word.ofBytes (Word.low value)
        (if cell + 1 < (m.store.region region).size then Word.high value else openBus) ∨
      m.KeepsMemory (m.writeWord addr value)

/-- A byte written at an address lands in card RAM, which the address does not
show. -/
def Hides (m : Machine) (addr : Word) (value : Byte) : Prop :=
  (∃ cell : Nat, ((m.write addr value).store.region .extraRam)[cell]? = some value) ∧
    ∀ base span, m.slots.readPage addr ≠ .flat .extraRam base span

/-! ### Accesses to a page that is shown on both sides -/

namespace Carries

theorem read_write (h : m.Carries rom card settings sel)
    (hwrite : m.slots.writePage addr = .flat region base span)
    (hread : m.slots.readPage addr = .flat region base span) (value : Byte) :
    ((m.write addr value).read addr).1 = value := by
  have hrom : (m.slots.readPage addr).isRom = false := by
    rw [hread, ← hwrite]
    exact h.isRom_writePage addr
  have hslots : (m.write addr value).slots.readPage addr = .flat region base span := by
    simp only [write, hwrite, selectsRomPage_of_isRom hrom, Bool.false_eq_true, if_false]
    exact hread
  rw [read_of_flat hslots, store_write_of_flat hwrite]
  exact (m.store.peek_poke region region _ _ value).trans
    (if_pos ⟨rfl, rfl, h.writeCell_lt hwrite⟩)

theorem readWord_writeWord (h : m.Carries rom card settings sel) {cell : Nat}
    (hcell : (m.slots.writePage addr).wordCell addr = (region, cell))
    (hpage : m.slots.readPage addr = m.slots.writePage addr) (value : Word) :
    (m.writeWord addr value).readWord addr = Word.ofBytes (Word.low value)
      (if cell + 1 < (m.store.region region).size then Word.high value else openBus) := by
  have hlow : (m.writeWord addr value).store.peek region cell = Word.low value := by
    rw [store_writeWord hcell, Store.peek_poke, if_neg (by omega), Store.peek_poke,
      if_pos ⟨rfl, rfl, h.writeWordCell_lt hcell⟩]
  have hhigh : (m.writeWord addr value).store.peek region (cell + 1) =
      if cell + 1 < (m.store.region region).size then Word.high value else openBus := by
    split
    · rename_i hnext
      rw [store_writeWord hcell, Store.peek_poke, if_pos ⟨rfl, rfl, by simpa using hnext⟩]
    · -- no cell is left for the high byte
      rename_i hlast
      refine Store.peek_of_size_le _ ?_
      rw [store_writeWord hcell]
      simpa using hlast
  have hslots : (m.writeWord addr value).slots = m.slots := rfl
  simp only [readWord, hslots, hpage, hcell, hlow, hhigh]

/-! ### In step, a write is seen or discarded -/

/-- **Where the sides agree, writes are seen or discarded.** -/
theorem coherent (h : m.Carries rom card settings sel)
    (hagree : m.SidesAgree (m.slots.bankAt addr)) : m.Coherent addr := by
  rw [SidesAgree, ← Slots.readPage_eq h.slots, ← Slots.writePage_eq h.slots] at hagree
  rcases hagree with hsame | ⟨-, hsink⟩
  · -- one page for both sides, which a byte write to hardware leaves alone
    refine ⟨fun value => ?_, fun hcell value => .inl (h.readWord_writeWord hcell hsame value)⟩
    rcases hwrite : m.slots.writePage addr with ⟨region, base, span⟩ | -
    · exact .inl (h.read_write hwrite (hsame.trans hwrite) value)
    · refine .inr fun r _ => ?_
      simp only [write, hwrite]
      rw [(m.writeHardware_devicesOnly _ value).region]
  · -- ROM for reading: bytes and words go to the sink
    constructor
    · intro value
      refine .inr fun r hr => ?_
      rw [store_write_of_flat hsink, Store.region_poke_of_ne _ hr]
    · intro region cell hcell value
      have hregion : region = .sink := by
        rw [hsink] at hcell
        cases hcell
        rfl
      refine .inr fun r hr => ?_
      rw [store_writeWord hcell, hregion, Store.region_poke_of_ne _ hr,
        Store.region_poke_of_ne _ hr]

/-! ### Out of step -/

/-- **The sides disagree exactly for the numbers of card RAM while a page of
ROM is selected.** -/
theorem sidesAgree_iff (h : m.Carries rom card settings sel) {number : Byte} :
    m.SidesAgree number ↔
      sel = none ∨ (layoutOf card settings).extraBank? number.toNat = none := by
  rw [SidesAgree, h.table, Table.agree_selected_iff]

/-- **Where the sides disagree, every byte written lands out of sight.** -/
theorem hides (h : m.Carries rom card settings sel)
    (hdisagree : ¬m.SidesAgree (m.slots.bankAt addr)) (value : Byte) : m.Hides addr value := by
  -- so a page of ROM is selected, and the number is one of card RAM
  rw [h.sidesAgree_iff, not_or] at hdisagree
  obtain ⟨page, rfl⟩ := Option.ne_none_iff_exists'.mp hdisagree.1
  obtain ⟨block, hx⟩ := Option.ne_none_iff_exists'.mp hdisagree.2
  obtain ⟨hwrite, hread⟩ := Table.pages_of_extraBank? hx page
  rw [← h.writePage_eq] at hwrite
  refine ⟨⟨_, h.getElem?_write hwrite value⟩, fun base span => ?_⟩
  rw [h.readPage_eq]
  rcases hread with e | ⟨romBlock, e⟩ <;> simp [e, Page.sink, Page.bank]

/-! ### Which cards can get out of step -/

/-- Only a card with more ROM than numbers for it selects pages. -/
theorem selectedBy_none (h : m.Carries rom card settings sel)
    (hrom : card.romBanks ≤ romBankLimit) (op : Op) : m.selectedBy none op = none := by
  have hregister : m.table.hasPageRegister = false := by
    rw [h.hasPageRegister_eq]
    exact decide_eq_false (Nat.not_lt.mpr hrom)
  cases op with
  | write addr value =>
    simp only [selectedBy, selectsRomPage, hregister, Bool.false_and, Bool.false_eq_true, if_false]
  | _ => rfl

theorem selectedAfter_none (h : m.Carries rom card settings sel)
    (hrom : card.romBanks ≤ romBankLimit) (ops : List Op) : m.selectedAfter none ops = none := by
  induction ops generalizing m sel with
  | nil => rfl
  | cons op ops ih =>
    -- the first operation selects nothing, so the rest starts from nothing again
    rw [selectedAfter, h.selectedBy_none hrom op]
    exact ih (h.step op)

/-- With enough ROM, a slot that shows the first bank shows the page
register. -/
theorem selectsRomPage_of_bankAt (h : m.Carries rom card settings sel)
    (hrom : romBankLimit < card.romBanks) (haddr : isPageRegister addr = true)
    (hbank : m.slots.bankAt addr = 0) : m.selectsRomPage addr = true := by
  have hpage : m.slots.readPage addr = .bank .rom 0 := by
    have hfirst : (0 : Nat) < card.romBanks := Nat.lt_of_le_of_lt (Nat.zero_le _) hrom
    rw [h.readPage_eq, hbank]
    -- bank 0 is outside the numbers that the page register moves
    rcases Table.readPage_selected_cases (layoutOf card settings) sel 0 with e | ⟨hw, -⟩
    · exact e.trans (Layout.readPage_of_lt hfirst (by decide))
    · exact absurd hw (by decide)
  rw [selectsRomPage, h.hasPageRegister_of_lt hrom, haddr, hpage]
  rfl

end Carries

/-- With enough ROM, the first operation can select a page. -/
theorem selectedAfter_boot (h : card.validate rom = .ok ()) (hrom : romBankLimit < card.romBanks) :
    (boot rom card settings).selectedAfter none [.write 0xFFF0 0] = some 0 := by
  have hsel : (boot rom card settings).selectsRomPage 0xFFF0 = true :=
    (carries_boot h).selectsRomPage_of_bankAt hrom (by decide) rfl
  simp only [selectedAfter, selectedBy, hsel, if_true]
  rfl

/-! ### After any run -/

/-- **The two sides of the bank table, after any run.**  They agree for a number
unless a page of ROM is selected and the number is one of card RAM.  Where they
agree, a write is seen or discarded; where they do not, it lands in card RAM out
of sight.  So they agree for ever exactly on a card that cannot have both. -/
theorem sidesAgree_run (h : powerOn rom card settings = .ok start) :
    (∀ ops number, (start.run ops).SidesAgree number ↔
      start.selectedAfter none ops = none ∨
        (layoutOf card settings).extraBank? number.toNat = none) ∧
    (∀ ops addr, (start.run ops).SidesAgree ((start.run ops).slots.bankAt addr) →
      (start.run ops).Coherent addr) ∧
    (∀ ops addr, ¬(start.run ops).SidesAgree ((start.run ops).slots.bankAt addr) →
      ∀ value, (start.run ops).Hides addr value) ∧
    ((∀ ops number, (start.run ops).SidesAgree number) ↔
      card.romBanks ≤ romBankLimit ∨ card.extraBanks = 0) := by
  have hrun : ∀ ops, (start.run ops).Carries rom card settings (start.selectedAfter none ops) :=
    carries_of_powerOn h
  obtain ⟨hvalid, rfl⟩ := powerOn_eq_ok_iff.mp h
  refine ⟨fun ops number => (hrun ops).sidesAgree_iff, fun ops addr => (hrun ops).coherent,
    fun ops addr => (hrun ops).hides, ?_⟩
  have hextra : (∀ number : Byte, (layoutOf card settings).extraBank? number.toNat = none) ↔
      card.extraBanks = 0 := Layout.extraBank?_eq_none_iff
  constructor
  · intro hagree
    by_cases hrom : card.romBanks ≤ romBankLimit
    · exact .inl hrom
    · -- with the page register, one write leaves only cards without RAM in step
      refine .inr (hextra.mp fun number => ?_)
      have hiff := (hrun [.write 0xFFF0 0]).sidesAgree_iff.mp (hagree _ number)
      rw [selectedAfter_boot hvalid (Nat.lt_of_not_le hrom)] at hiff
      exact hiff.resolve_left (Option.some_ne_none 0)
  · rintro (hrom | hnone) ops number
    · exact (hrun ops).sidesAgree_iff.mpr (.inl ((carries_boot hvalid).selectedAfter_none hrom ops))
    · exact (hrun ops).sidesAgree_iff.mpr (.inr (hextra.mpr hnone number))

/-- On the card that has both. -/
theorem sidesAgree_run_largeCard :
    let start := boot largeImage largeCard .standard
    powerOn largeImage largeCard .standard = .ok start ∧
      (∀ ops number, (start.run ops).SidesAgree number ↔
        start.selectedAfter none ops = none ∨
          (layoutOf largeCard .standard).extraBank? number.toNat = none) ∧
      (∀ ops addr, (start.run ops).SidesAgree ((start.run ops).slots.bankAt addr) →
        (start.run ops).Coherent addr) ∧
      (∀ ops addr, ¬(start.run ops).SidesAgree ((start.run ops).slots.bankAt addr) →
        ∀ value, (start.run ops).Hides addr value) ∧
      ((∀ ops number, (start.run ops).SidesAgree number) ↔
        largeCard.romBanks ≤ romBankLimit ∨ largeCard.extraBanks = 0) := by
  intro start
  exact ⟨powerOn_largeCard, sidesAgree_run powerOn_largeCard⟩

/-- The operations of `selectOverRam` leave page 0 selected. -/
theorem carries_selectOverRam :
    ((boot largeImage largeCard .standard).run selectOverRam).Carries largeImage largeCard
      .standard (some 0) := by
  have hbank : ((boot largeImage largeCard .standard).selectBank 2 0x40).Carries largeImage
      largeCard .standard none := (carries_boot validate_largeCard).selectBank 2 0x40
  have hsel : ((boot largeImage largeCard .standard).selectBank 2 0x40).selectsRomPage 0xFFF0 =
      true := hbank.selectsRomPage_of_bankAt (by decide) (by decide) rfl
  have hstep := hbank.step (.write 0xFFF0 0)
  rw [selectedBy, if_pos hsel] at hstep
  exact hstep

/-- Slot 2 then shows the first bank of the page for reading, and still card RAM
for writing. -/
theorem pages_selectOverRam :
    let m := (boot largeImage largeCard .standard).run selectOverRam
    m.slots.bankAt 0x4000 = 0x40 ∧ m.slots.readPage 0x4000 = .bank .rom 64 ∧
      m.slots.writePage 0x4000 = .bank .extraRam 0 := by
  intro m
  have hbank : m.slots.bankAt 0x4000 = 0x40 := by
    show (((boot largeImage largeCard .standard).selectBank 2 0x40).write 0xFFF0 0).slots.banks[
      Slots.ofAddress 0x4000] = 0x40
    rw [banks_write]
    rfl
  refine ⟨hbank, ?_, ?_⟩
  · rw [carries_selectOverRam.readPage_eq, hbank, Table.readPage_selected_some]
    rfl
  · rw [carries_selectOverRam.writePage_eq, hbank, Table.writePage_selected]
    rfl

/-- On this card, the number `$40` gets out of step: a byte written through it
goes to card RAM, and reading through it still shows the image. -/
theorem sides_apart_selectOverRam :
    let start := boot largeImage largeCard .standard
    let m := start.run selectOverRam
    powerOn largeImage largeCard .standard = .ok start ∧
      m.table.readPage 0x40 = .bank .rom 64 ∧
      m.table.writePage 0x40 = .bank .extraRam 0 ∧
      ¬m.SidesAgree 0x40 ∧
      (m.write 0x4000 0x5A).store.peek .extraRam 0 = 0x5A ∧
      ((m.write 0x4000 0x5A).read 0x4000).1 = 0 := by
  intro start m
  have hm : m.Carries largeImage largeCard .standard (some 0) := carries_selectOverRam
  have hbank : m.slots.bankAt 0x4000 = 0x40 := pages_selectOverRam.1
  have hread : m.slots.readPage 0x4000 = .bank .rom 64 := pages_selectOverRam.2.1
  have hwrite : m.slots.writePage 0x4000 = .bank .extraRam 0 := pages_selectOverRam.2.2
  have htable : m.table.readPage 0x40 = .bank .rom 64 ∧
      m.table.writePage 0x40 = .bank .extraRam 0 := by
    rw [← hbank, ← Slots.readPage_eq hm.slots, ← Slots.writePage_eq hm.slots]
    exact ⟨hread, hwrite⟩
  have hstore := store_write_of_flat hwrite 0x5A
  refine ⟨powerOn_largeCard, htable.1, htable.2, ?_, ?_, ?_⟩
  · rw [SidesAgree, htable.1, htable.2]
    decide
  · rw [hstore, Store.peek_poke]
    exact if_pos ⟨rfl, rfl, hm.writeCell_lt hwrite⟩
  · -- the address is not one of the page register's, so the slots stay
    have hother : m.selectsRomPage 0x4000 = false := by
      rw [selectsRomPage, show isPageRegister 0x4000 = false by decide, Bool.and_false,
        Bool.false_and]
    have hslots : (m.write 0x4000 0x5A).slots.readPage 0x4000 = .bank .rom 64 := by
      simp only [write, hwrite, hother, Page.bank, Bool.false_eq_true, if_false]
      exact hread
    rw [read_of_flat hslots, hstore, Store.peek_poke, if_neg (fun e => Region.noConfusion e.1)]
    show (m.store.rom[_]?).getD openBus = 0
    rw [hm.rom, largeImage, Array.getElem?_replicate, if_pos (by decide), Option.getD_some]

end PcEngine.Machine
