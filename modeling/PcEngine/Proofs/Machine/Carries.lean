/-
PcEngine/Proofs/Machine/Carries.lean

The invariant of a machine that carries a card.

`Carries rom card settings sel m` says that `m` is a machine into which `card`
with the image `rom` was put under `settings`, and that `sel` is the page of
ROM that is selected on it, if any:

* `rom`, `size` — the image is whole and the regions have their sizes;
* `table` — the bank table is the one of the card with that page;
* `slots` — every slot shows what the bank table says about its register;
* `threshold`, `territory` — what the settings fix is as they fix it.

The page is not part of a machine.  It is read off the operations:
`selectedAfter` follows a run and keeps the page of the last write that hit the
page register, from the last reset on.

Main results: power-on establishes the invariant (`carries_boot`) and every
operation keeps it (`Carries.step`), so it holds after every run with the page
that the run has selected (`Carries.run`).
-/
import PcEngine.Proofs.Bank.Extent
import PcEngine.Proofs.Machine.Effect
import PcEngine.Proofs.Store.Frame

namespace PcEngine

/-! ### Slots in step with a table -/

namespace Slots

variable {s : Slots} {t : Table}

/-- Selecting a bank keeps the slots in step. -/
theorem select_eq_ofBanks (h : s = ofBanks t s.banks) (n : Nat) (bank : Byte) :
    s.select t n bank = ofBanks t (s.select t n bank).banks := by
  rw [h]
  simp only [select, ofBanks, Vector.map_set]

theorem readPage_eq (h : s = ofBanks t s.banks) (addr : Word) :
    s.readPage addr = t.readPage (s.bankAt addr) := by
  rw [h]
  simp only [readPage, ofBanks, bankAt, Fin.getElem_fin, Vector.getElem_map]

theorem writePage_eq (h : s = ofBanks t s.banks) (addr : Word) :
    s.writePage addr = t.writePage (s.bankAt addr) := by
  rw [h]
  simp only [writePage, ofBanks, bankAt, Fin.getElem_fin, Vector.getElem_map]

end Slots

namespace Machine

/-! ### The page that operations select -/

/-- The page of ROM selected after an operation, if `sel` was before it: a
write that hits the page register selects a page, and a reset undoes all
selections. -/
def selectedBy (m : Machine) (sel : Option Nat) : Op → Option Nat
  | .write addr _ => if m.selectsRomPage addr then some (romPageOf addr) else sel
  | .reset => none
  | _ => sel

/-- The page of ROM selected after operations carried out one after the
other. -/
def selectedAfter (m : Machine) (sel : Option Nat) : List Op → Option Nat
  | [] => sel
  | op :: ops => (m.step op).2.selectedAfter (m.selectedBy sel op) ops

/-- The page register answers through ROM only. -/
theorem selectsRomPage_of_isRom {m : Machine} {addr : Word}
    (h : (m.slots.readPage addr).isRom = false) : m.selectsRomPage addr = false := by
  rw [selectsRomPage, h, Bool.and_false]

/-! ### The invariant -/

/-- A machine that carries a card; the fields are described at the head of the
file. -/
structure Carries (rom : Array Byte) (card : Card) (settings : Settings) (sel : Option Nat)
    (m : Machine) : Prop where
  rom : m.store.rom = rom
  size : ∀ r, (m.store.region r).size = (layoutOf card settings).regionSize r
  table : m.table = .selected (layoutOf card settings) sel
  slots : m.slots = .ofBanks m.table m.slots.banks
  threshold : m.timer.threshold = max settings.threshold.toNat 1
  territory : m.joypad.territory = settings.territory

variable {m m' : Machine} {rom : Array Byte} {card : Card} {settings : Settings}
variable {sel : Option Nat}

namespace Carries

/-! ### What the slots show -/

theorem layout_eq (h : m.Carries rom card settings sel) :
    m.table.layout = layoutOf card settings := by
  rw [h.table, Table.layout_selected]

theorem hasPageRegister_eq (h : m.Carries rom card settings sel) :
    m.table.hasPageRegister = decide (romBankLimit < card.romBanks) := by
  rw [Table.hasPageRegister, h.layout_eq]
  rfl

theorem hasPageRegister_of_lt (h : m.Carries rom card settings sel)
    (hrom : romBankLimit < card.romBanks) : m.table.hasPageRegister = true := by
  rw [h.hasPageRegister_eq]
  exact decide_eq_true hrom

theorem readPage_eq (h : m.Carries rom card settings sel) (addr : Word) :
    m.slots.readPage addr =
      (Table.selected (layoutOf card settings) sel).readPage (m.slots.bankAt addr) := by
  rw [Slots.readPage_eq h.slots, h.table]

theorem writePage_eq (h : m.Carries rom card settings sel) (addr : Word) :
    m.slots.writePage addr =
      (Table.selected (layoutOf card settings) sel).writePage (m.slots.bankAt addr) := by
  rw [Slots.writePage_eq h.slots, h.table]

theorem isRom_writePage (h : m.Carries rom card settings sel) (addr : Word) :
    (m.slots.writePage addr).isRom = false := by
  rw [h.writePage_eq, Table.writePage_selected, Layout.isRom_writePage]

/-- No cell that a write reaches is one of ROM. -/
theorem region_ne_rom (h : m.Carries rom card settings sel) {addr : Word} {region : Region}
    {base span : Nat} (hpage : m.slots.writePage addr = .flat region base span) :
    region ≠ .rom := by
  rintro rfl
  have := h.isRom_writePage addr
  rw [hpage] at this
  cases this

/-- Nor is a cell of a word: through the hardware page words go to the sink. -/
theorem wordRegion_ne_rom (h : m.Carries rom card settings sel) {addr : Word} {region : Region}
    {cell : Nat} (hcell : (m.slots.writePage addr).wordCell addr = (region, cell)) :
    region ≠ .rom := by
  rcases hpage : m.slots.writePage addr with ⟨region', base, span⟩ | - <;>
    rw [hpage] at hcell <;> cases hcell
  · exact h.region_ne_rom hpage
  · exact Region.noConfusion

/-- A slot shows the hardware page on both sides or on none. -/
theorem hardware_iff (h : m.Carries rom card settings sel) (addr : Word) :
    m.slots.writePage addr = .hardware ↔ m.slots.readPage addr = .hardware := by
  rw [h.readPage_eq, h.writePage_eq, Table.readPage_selected_eq_hardware_iff,
    Table.writePage_selected_eq_hardware_iff]

/-- The hardware page has the number `$FF`, and no other. -/
theorem readPage_eq_hardware_iff (h : m.Carries rom card settings sel) (addr : Word) :
    m.slots.readPage addr = .hardware ↔ m.slots.bankAt addr = 0xFF := by
  rw [h.readPage_eq, Table.readPage_selected_eq_hardware_iff]

/-- The page register does not answer through the hardware page. -/
theorem selectsRomPage_of_hardware (h : m.Carries rom card settings sel) {addr : Word}
    (hpage : m.slots.writePage addr = .hardware) : m.selectsRomPage addr = false := by
  refine selectsRomPage_of_isRom ?_
  rw [(h.hardware_iff addr).mp hpage]
  rfl

/-! ### Every operation keeps the invariant -/

/-- Devices have no part in the invariant. -/
theorem devices (h : m.Carries rom card settings sel) (hd : DevicesOnly m m') :
    m'.Carries rom card settings sel where
  rom := (congrFun hd.region .rom).trans h.rom
  size r := by rw [hd.region]; exact h.size r
  table := hd.table.trans h.table
  slots := by rw [hd.slots, hd.table]; exact h.slots
  threshold := hd.threshold.trans h.threshold
  territory := hd.territory.trans h.territory

/-- Replacing a cell outside ROM keeps the invariant. -/
theorem poke (h : m.Carries rom card settings sel) {region : Region} (hr : region ≠ .rom)
    (cell : Nat) (value : Byte) :
    Carries rom card settings sel { m with store := m.store.poke region cell value } :=
  { h with
    rom := (Store.rom_poke m.store hr cell value).trans h.rom
    size := fun r => (Store.size_region_poke m.store region r cell value).trans (h.size r) }

theorem selectRomPage (h : m.Carries rom card settings sel) (page : Nat) :
    (m.selectRomPage page).Carries rom card settings (some page) := by
  have htable : m.table.selectRomPage page =
      .selected (layoutOf card settings) (some page) := by
    rw [h.table, Table.selectRomPage_selected]
  simp only [Machine.selectRomPage, htable]
  exact ⟨h.rom, h.size, rfl, rfl, h.threshold, h.territory⟩

theorem selectBank (h : m.Carries rom card settings sel) (slot : Nat) (bank : Byte) :
    (m.selectBank slot bank).Carries rom card settings sel :=
  { h with slots := Slots.select_eq_ofBanks h.slots slot bank }

theorem restoreBackup (h : m.Carries rom card settings sel) (data : Array Byte) :
    (m.restoreBackup data).Carries rom card settings sel :=
  { h with
    size := fun r => (Store.size_region_restoreBackup m.store data r).trans (h.size r) }

/-- A reset builds the table anew, with no page selected. -/
theorem reset (h : m.Carries rom card settings sel) :
    m.reset.Carries rom card settings none where
  rom := h.rom
  size r := (Store.size_region_clearVolatile m.store r).trans (h.size r)
  table := by
    show Table.ofLayout m.table.layout = .ofLayout (layoutOf card settings)
    rw [h.table, Table.layout_selected]
  slots := rfl
  threshold := by
    show max m.timer.threshold 1 = max settings.threshold.toNat 1
    rw [h.threshold]
    omega
  territory := h.territory

/-- **Every operation keeps the invariant**, with the page that it selects. -/
theorem step (h : m.Carries rom card settings sel) (op : Op) :
    (m.step op).2.Carries rom card settings (m.selectedBy sel op) := by
  have heff := m.step_effect op
  generalize (m.step op).2 = m' at heff ⊢
  cases heff with
  | devices hwrite hreset hd =>
    -- only writes and resets move the selection, and this is neither
    have hsel : m.selectedBy sel op = sel := by
      cases op with
      | write addr value => exact absurd rfl (hwrite addr value)
      | reset => exact absurd rfl hreset
      | _ => rfl
    rw [hsel]
    exact h.devices hd
  | hardware hpage hd =>
    simp only [selectedBy, h.selectsRomPage_of_hardware hpage, Bool.false_eq_true, if_false]
    exact h.devices hd
  | poke hpage hsel =>
    simp only [selectedBy, hsel, Bool.false_eq_true, if_false]
    exact h.poke (h.region_ne_rom hpage) _ _
  | @select addr _ _ _ _ hpage hsel =>
    simp only [selectedBy, hsel, if_true, ← store_selectRomPage m (romPageOf addr)]
    exact (h.selectRomPage _).poke (h.region_ne_rom hpage) _ _
  | pokeWord hcell =>
    have hr := h.wordRegion_ne_rom hcell
    exact (h.poke hr _ _).poke hr _ _
  | bank => exact h.selectBank _ _
  | backup => exact h.restoreBackup _
  | reset => exact h.reset

/-- **Every run keeps the invariant**, with the page that the run selects. -/
theorem run (h : m.Carries rom card settings sel) (ops : List Op) :
    (m.run ops).Carries rom card settings (m.selectedAfter sel ops) := by
  -- the page moves along with the machine, so both are generalized
  induction ops generalizing m sel with
  | nil => exact h
  | cons op ops ih => exact ih (h.step op)

end Carries

/-! ### Power-on establishes it -/

/-- A card accepts an image that holds as many banks as the card says, at least
one. -/
theorem validate_eq_ok_iff {card : Card} :
    card.validate rom = .ok () ↔ card.romBanks ≠ 0 ∧ rom.size = card.romBanks * bankSize := by
  constructor
  · intro h
    unfold Card.validate at h
    split at h
    · cases h
    · split at h
      · cases h
      · split at h
        · cases h
        · rename_i hzero hwhole hbanks
          have hdvd : bankSize ∣ rom.size := Nat.dvd_of_mod_eq_zero (Decidable.not_not.mp hwhole)
          refine ⟨fun e => hzero (.inl e), ?_⟩
          rw [← Decidable.not_not.mp hbanks, Nat.div_mul_cancel hdvd]
  · rintro ⟨hzero, hsize⟩
    have hbank : 0 < bankSize := by decide
    have hempty : rom.isEmpty = false := by
      rw [← Bool.not_eq_true, Array.isEmpty_iff_size_eq_zero, hsize]
      exact Nat.mul_ne_zero hzero (Nat.ne_of_gt hbank)
    simp only [Card.validate, hzero, hempty, hsize, Nat.mul_mod_left, Nat.mul_div_cancel _ hbank,
      Bool.false_eq_true, or_self, ne_eq, not_true_eq_false, if_false]

theorem powerOn_eq_ok_iff :
    powerOn rom card settings = .ok m ↔
      card.validate rom = .ok () ∧ m = boot rom card settings := by
  unfold powerOn
  rcases card.validate rom with e | ⟨⟩
  · constructor
    · intro h
      cases h
    · rintro ⟨h, -⟩
      cases h
  · constructor
    · intro h
      exact ⟨rfl, (Except.ok.inj h).symm⟩
    · rintro ⟨-, rfl⟩
      rfl

theorem carries_boot (h : card.validate rom = .ok ()) :
    (boot rom card settings).Carries rom card settings none where
  rom := rfl
  size r := by
    cases r with
    | rom => exact (validate_eq_ok_iff.mp h).2
    -- every other region is made with its size
    | ram | backupRam | extraRam | sink => exact Array.size_replicate
  table := rfl
  slots := rfl
  threshold := rfl
  territory := rfl

/-- The invariant along any run from power-on. -/
theorem carries_of_powerOn (h : powerOn rom card settings = .ok m) (ops : List Op) :
    (m.run ops).Carries rom card settings (m.selectedAfter none ops) := by
  obtain ⟨hvalid, rfl⟩ := powerOn_eq_ok_iff.mp h
  exact (carries_boot hvalid).run ops

theorem Reachable.carries (h : m.Reachable) :
    ∃ rom card settings sel, m.Carries rom card settings sel := by
  obtain ⟨rom, card, settings, start, ops, hstart, rfl⟩ := h
  exact ⟨rom, card, settings, _, carries_of_powerOn hstart ops⟩

theorem reachable_run (settings : Settings) (h : card.validate rom = .ok ()) (ops : List Op) :
    Reachable ((boot rom card settings).run ops) :=
  ⟨rom, card, settings, _, ops, powerOn_eq_ok_iff.mpr ⟨h, rfl⟩, rfl⟩

/-! ### A card with a page register and RAM

The smallest card on which everything that bank switching can do happens: one
bank of ROM more than there are numbers for it, and a bank of RAM. -/

def largeCard : Card := ⟨129, 1⟩

/-- An image for the card, all zeros. -/
def largeImage : Array Byte := .replicate (129 * bankSize) 0

theorem validate_largeCard : largeCard.validate largeImage = .ok () :=
  validate_eq_ok_iff.mpr ⟨Nat.succ_ne_zero _, Array.size_replicate⟩

theorem powerOn_largeCard :
    powerOn largeImage largeCard .standard = .ok (boot largeImage largeCard .standard) :=
  powerOn_eq_ok_iff.mpr ⟨validate_largeCard, rfl⟩

/-- Show card RAM in slot 2, then write to the page register through slot 7. -/
def selectOverRam : List Op := [.selectBank 2 0x40, .write 0xFFF0 0]

end Machine

end PcEngine
