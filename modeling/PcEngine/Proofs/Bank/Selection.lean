/-
PcEngine/Proofs/Bank/Selection.lean

The bank table as a function of two things: the layout of the card, and the
page of ROM that the card's page register holds, if one has been selected.

    Table.selected l none        the table as it is built
    Table.selected l (some p)    the numbers $40-$7F read page p

Selecting a page over another one leaves only the later one
(`selectRomPage_selected`), so these are all the tables a card can ever have.

Main results: the hardware page is behind the number `$FF` and behind no other,
on either side (`readPage_selected_eq_hardware_iff`,
`writePage_selected_eq_hardware_iff`); no write reaches ROM
(`isRom_writePage`); and the two sides of a number agree
(`Page.Agree`), except that a selected page of ROM covers the read side of card
RAM and not its write side (`agree_selected_iff`).
-/
import PcEngine.Bank.Slots

namespace PcEngine

/-! ### What the layout alone decides -/

namespace Layout

variable {l : Layout} {number : Nat}

theorem fixedPage?_eq_hardware_iff :
    fixedPage? number = some .hardware ↔ number = hardwareBank := by
  constructor
  · intro h
    unfold fixedPage? at h
    split at h
    · cases h
    · split at h
      · cases h
      · split at h
        · assumption
        · cases h
  · rintro rfl
    rfl

/-- The fixed numbers lie above those of ROM and card RAM. -/
theorem fixedPage?_eq_none (h : number < romBankLimit) : fixedPage? number = none := by
  have hb : number ≠ backupRamBank := by simp only [romBankLimit, backupRamBank] at *; omega
  have hr : ¬(firstRamBank ≤ number ∧ number ≤ lastRamBank) := by
    simp only [romBankLimit, firstRamBank] at *; omega
  have hh : number ≠ hardwareBank := by simp only [romBankLimit, hardwareBank] at *; omega
  rw [fixedPage?, if_neg hb, if_neg hr, if_neg hh]

/-- Card RAM is reachable only through the numbers that the page register
moves. -/
theorem window_of_extraBank? {block : Nat} (h : l.extraBank? number = some block) :
    romWindowFirst ≤ number ∧ number < romWindowFirst + romWindowBanks := by
  unfold extraBank? at h
  split at h
  · simp only [firstExtraRamBank, romBankLimit, romWindowFirst, romWindowBanks] at *
    omega
  · cases h

/-- Some number points to card RAM exactly if there is any. -/
theorem extraBank?_eq_none_iff :
    (∀ number : Byte, l.extraBank? number.toNat = none) ↔ l.extraBanks = 0 := by
  constructor
  · intro h
    have hfirst := h 0x40
    unfold extraBank? at hfirst
    split at hfirst
    · cases hfirst
    · rename_i hout
      have hnumber : (0x40 : Byte).toNat = firstExtraRamBank := rfl
      simp only [hnumber, firstExtraRamBank, romBankLimit] at hout
      omega
  · intro h number
    -- the range of numbers is empty
    rw [extraBank?, if_neg]
    simp only [h]
    omega

/-- Below card RAM, ROM that the image holds is read under its own number. -/
theorem readPage_of_lt (hrom : number < l.romBanks) (hlow : number < firstExtraRamBank) :
    l.readPage number = .bank .rom number := by
  have hlimit : number < romBankLimit := by
    simp only [firstExtraRamBank, romBankLimit] at *; omega
  have hx : l.extraBank? number = none := by
    rw [extraBank?, if_neg]
    omega
  have hb : l.romBank? number = some number := by rw [romBank?, if_pos hrom]
  simp only [readPage, fixedPage?_eq_none hlimit, hx, if_pos hlimit, hb]

/-- Outside the fixed numbers and card RAM, reading sees ROM or the sink. -/
theorem readPage_of_none (hf : fixedPage? number = none) (hx : l.extraBank? number = none) :
    l.readPage number = .sink ∨ ∃ block, l.romBank? number = some block ∧
      l.readPage number = .bank .rom block := by
  simp only [readPage, hf, hx]
  split
  · rcases e : l.romBank? number with - | block
    · exact .inl rfl
    · exact .inr ⟨block, rfl, rfl⟩
  · exact .inl rfl

theorem writePage_of_none (hf : fixedPage? number = none) (hx : l.extraBank? number = none) :
    l.writePage number = .sink := by
  simp only [writePage, hf, hx]

theorem readPage_eq_hardware_iff : l.readPage number = .hardware ↔ number = hardwareBank := by
  rw [← fixedPage?_eq_hardware_iff]
  rcases hf : fixedPage? number with - | page
  · rcases hx : l.extraBank? number with - | block
    · rcases readPage_of_none hf hx with e | ⟨block, -, e⟩ <;>
        simp [e, Page.sink, Page.bank]
    · simp [readPage, hf, hx, Page.bank]
  · simp [readPage, hf]

theorem writePage_eq_hardware_iff : l.writePage number = .hardware ↔ number = hardwareBank := by
  rw [← fixedPage?_eq_hardware_iff]
  rcases hf : fixedPage? number with - | page
  · rcases hx : l.extraBank? number with - | block
    · simp [writePage_of_none hf hx, Page.sink, Page.bank]
    · simp [writePage, hf, hx, Page.bank]
  · simp [writePage, hf]

/-- A page that a number points to whatever the card is not ROM. -/
theorem isRom_of_fixedPage? {page : Page} (h : fixedPage? number = some page) :
    page.isRom = false := by
  simp only [fixedPage?] at h
  split at h
  · cases h; rfl
  · split at h
    · cases h; rfl
    · split at h
      · cases h; rfl
      · cases h

/-- No write reaches ROM. -/
theorem isRom_writePage : (l.writePage number).isRom = false := by
  rcases hf : fixedPage? number with - | page
  · rcases hx : l.extraBank? number with - | block
    · rw [writePage_of_none hf hx]; rfl
    · simp only [writePage, hf, hx]; rfl
  · simp only [writePage, hf]
    exact isRom_of_fixedPage? hf

/-- A page of ROM is ROM as far as the image goes. -/
theorem romPage_cases (l : Layout) (page number : Nat) :
    l.romPage page number = .sink ∨
      ∃ block, block < l.romBanks ∧ l.romPage page number = .bank .rom block := by
  unfold romPage
  dsimp only
  split
  · exact .inr ⟨_, ‹_›, rfl⟩
  · exact .inl rfl

end Layout

/-! ### Tables with a page selected -/

namespace Table

variable {l : Layout} {sel : Option Nat} {number : Byte}

/-- The table of a card on which a page of ROM has been selected, or none. -/
def selected (l : Layout) : Option Nat → Table
  | none => ofLayout l
  | some page => (ofLayout l).selectRomPage page

@[simp] theorem layout_selected : (selected l sel).layout = l := by
  cases sel <;> rfl

/-- Of two pages selected one after the other the later one counts. -/
@[simp] theorem selectRomPage_selected (page : Nat) :
    (selected l sel).selectRomPage page = selected l (some page) := by
  rcases sel with - | old
  · rfl
  · simp only [selected, selectRomPage, ofLayout, Table.mk.injEq, and_true]
    -- a number of the window forgets the old page, any other keeps its own
    apply Vector.ext
    intro i hi
    simp only [Vector.getElem_ofFn, Fin.getElem_fin]
    split <;> rfl

/-- Whether the page register moves a number. -/
def InWindow (number : Byte) : Prop :=
  romWindowFirst ≤ number.toNat ∧ number.toNat < romWindowFirst + romWindowBanks

instance : Decidable (InWindow number) := by unfold InWindow; infer_instance

theorem fixedPage?_of_inWindow (h : InWindow number) : Layout.fixedPage? number.toNat = none := by
  refine Layout.fixedPage?_eq_none ?_
  simp only [InWindow, romWindowFirst, romWindowBanks, romBankLimit] at *
  omega

theorem readPage_selected_some (page : Nat) :
    (selected l (some page)).readPage number =
      if InWindow number then l.romPage page number.toNat else l.readPage number.toNat := by
  simp only [selected, readPage_selectRomPage, readPage_ofLayout]
  rfl

@[simp] theorem writePage_selected :
    (selected l sel).writePage number = l.writePage number.toNat := by
  rcases sel with - | page
  · exact writePage_ofLayout l number
  · exact (writePage_selectRomPage _ page number).trans (writePage_ofLayout l number)

/-- Reading through a number sees what the layout says, or a page of ROM. -/
theorem readPage_selected_cases (l : Layout) (sel : Option Nat) (number : Byte) :
    (selected l sel).readPage number = l.readPage number.toNat ∨
      InWindow number ∧ ∃ page, sel = some page ∧
        (selected l sel).readPage number = l.romPage page number.toNat := by
  rcases sel with - | page
  · exact .inl (readPage_ofLayout l number)
  · rw [readPage_selected_some]
    by_cases h : InWindow number
    · exact .inr ⟨h, page, rfl, if_pos h⟩
    · exact .inl (if_neg h)

/-- Numbers outside the window read what the layout says. -/
theorem readPage_selected_of_not_inWindow (h : ¬InWindow number) :
    (selected l sel).readPage number = l.readPage number.toNat :=
  (readPage_selected_cases l sel number).resolve_right fun hcase => h hcase.1

/-! ### The hardware page -/

theorem toNat_eq_hardwareBank_iff : number.toNat = hardwareBank ↔ number = 0xFF :=
  ⟨fun h => UInt8.toNat_inj.mp h, fun h => h ▸ rfl⟩

theorem readPage_selected_eq_hardware_iff :
    (selected l sel).readPage number = .hardware ↔ number = 0xFF := by
  rw [← toNat_eq_hardwareBank_iff, ← Layout.readPage_eq_hardware_iff (l := l)]
  rcases readPage_selected_cases l sel number with e | ⟨hw, page, -, e⟩
  · rw [e]
  · -- a number of the window is not the hardware page's, moved or not
    have hn : number.toNat ≠ hardwareBank := by
      simp only [InWindow, romWindowFirst, romWindowBanks, hardwareBank] at *
      omega
    rw [e, Layout.readPage_eq_hardware_iff]
    rcases l.romPage_cases page number.toNat with e | ⟨block, -, e⟩ <;>
      simp [e, hn, Page.sink, Page.bank]

theorem writePage_selected_eq_hardware_iff :
    (selected l sel).writePage number = .hardware ↔ number = 0xFF := by
  rw [writePage_selected, Layout.writePage_eq_hardware_iff, toNat_eq_hardwareBank_iff]

end Table

/-! ### The two sides of a number -/

/-- Two sides that belong together: the same page, or ROM with the sink to
write to. -/
def Page.Agree (read write : Page) : Prop :=
  read = write ∨ read.isRom = true ∧ write = .sink

instance (read write : Page) : Decidable (read.Agree write) := by
  unfold Page.Agree; infer_instance

theorem Layout.agree (l : Layout) (number : Nat) :
    (l.readPage number).Agree (l.writePage number) := by
  rcases hf : fixedPage? number with - | page
  · rcases hx : l.extraBank? number with - | block
    · rw [writePage_of_none hf hx]
      rcases readPage_of_none hf hx with e | ⟨block, -, e⟩
      · exact .inl e
      · exact .inr ⟨e ▸ rfl, rfl⟩
    · exact .inl (by simp only [readPage, writePage, hf, hx])
  · exact .inl (by simp only [readPage, writePage, hf])

namespace Table

variable {l : Layout} {sel : Option Nat} {number : Byte}

/-- With a page of ROM selected, the numbers of card RAM read ROM, or the sink
where the image has ended, and still write card RAM. -/
theorem pages_of_extraBank? {block : Nat} (h : l.extraBank? number.toNat = some block)
    (page : Nat) :
    (selected l (some page)).writePage number = .bank .extraRam block ∧
      ((selected l (some page)).readPage number = .sink ∨
        ∃ romBlock, (selected l (some page)).readPage number = .bank .rom romBlock) := by
  have hw : InWindow number := Layout.window_of_extraBank? h
  constructor
  · simp only [writePage_selected, Layout.writePage, fixedPage?_of_inWindow hw, h]
  · rw [readPage_selected_some, if_pos hw]
    rcases l.romPage_cases page number.toNat with e | ⟨romBlock, -, e⟩
    · exact .inl e
    · exact .inr ⟨romBlock, e⟩

/-- **The two sides of a number agree, unless a page of ROM is selected and
the number is one of card RAM.** -/
theorem agree_selected_iff :
    ((selected l sel).readPage number).Agree ((selected l sel).writePage number) ↔
      sel = none ∨ l.extraBank? number.toNat = none := by
  rcases sel with - | page
  · simp only [selected, readPage_ofLayout, writePage_ofLayout, l.agree, true_or]
  rcases hx : l.extraBank? number.toNat with - | block
  · simp only [or_true, iff_true]
    rw [writePage_selected, readPage_selected_some]
    by_cases hw : InWindow number
    · rw [if_pos hw, Layout.writePage_of_none (fixedPage?_of_inWindow hw) hx]
      rcases l.romPage_cases page number.toNat with e | ⟨block, -, e⟩
      · exact .inl e
      · exact .inr ⟨e ▸ rfl, rfl⟩
    · rw [if_neg hw]
      exact l.agree number.toNat
  · -- the read side has moved to ROM, the write side still is card RAM
    simp only [reduceCtorEq, or_self, iff_false]
    obtain ⟨hwrite, hread⟩ := pages_of_extraBank? hx page
    rw [hwrite]
    rcases hread with e | ⟨romBlock, e⟩ <;> simp [e, Page.Agree, Page.sink, Page.bank]

end Table

end PcEngine
