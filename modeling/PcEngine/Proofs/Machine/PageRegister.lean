/-
PcEngine/Proofs/Machine/PageRegister.lean

A large card shows the page of ROM that was selected last.

A card with more than 128 banks of ROM has a page register.  A byte write hits
it (`HitsPage`) if it goes to one of the register's four addresses, through a
slot that reads ROM at that moment; the address says which page.  The page that
a run leaves selected is that of its last hit since the last reset, and page 0
if there is none (`IsPage`): the banks of page 0 are those that the numbers
`$40-$7F` read at power-on, so no case is needed for a register that has not
been written (`readPage_selected_window`).

Whether a write is a hit depends on the table that hits change.  This does no
harm: the page that the machine keeps and the page that its past tells change by
the same rule (`selectedBy_eq_some_iff`), whatever the table shows at that
moment, and the invariant `Carries` knows the table from the page alone.

Main result: `pageRegister_run`.  On a large card without RAM, the numbers
`$40-$7F` read the selected page after every run, through every slot, and
nothing else in the table ever changes (`FollowsPage`); on a card of at most 128
banks no operation changes the table at all.
-/
import PcEngine.Proofs.History
import PcEngine.Proofs.Machine.Sides

namespace PcEngine

/-! ### The numbers that the register moves -/

/-- The `i`-th number that the page register moves. -/
def windowNumber (i : Nat) : Byte := UInt8.ofNat (romWindowFirst + i)

/-- The bank of ROM that it reads with a page selected. -/
def windowBlock (page i : Nat) : Nat := romWindowBanks * (page + 1) + i

/-- What it reads from an image of `banks` banks, which may end before that bank. -/
def windowPage (banks page i : Nat) : Page :=
  if windowBlock page i < banks then .bank .rom (windowBlock page i) else .sink

theorem toNat_windowNumber {i : Nat} (hi : i < romWindowBanks) :
    (windowNumber i).toNat = romWindowFirst + i := by
  simp only [romWindowBanks] at hi
  simp only [windowNumber, romWindowFirst, UInt8.toNat_ofNat']
  omega

theorem inWindow_windowNumber {i : Nat} (hi : i < romWindowBanks) :
    Table.InWindow (windowNumber i) := by
  rw [Table.InWindow, toNat_windowNumber hi]
  omega

/-- Without card RAM, the window reads the selected page, and page 0 if none has
been selected. -/
theorem readPage_selected_window {l : Layout} (hrom : romBankLimit < l.romBanks)
    (hextra : l.extraBanks = 0) (sel : Option Nat) {i : Nat} (hi : i < romWindowBanks) :
    (Table.selected l sel).readPage (windowNumber i) = windowPage l.romBanks (sel.getD 0) i := by
  have hnumber := toNat_windowNumber hi
  rcases sel with - | page
  · -- as built: the number is that of a bank in the image
    have hlimit : (windowNumber i).toNat < romBankLimit := by
      simp only [romWindowFirst, romWindowBanks, romBankLimit] at *
      omega
    have hbank : (windowNumber i).toNat < l.romBanks := Nat.lt_trans hlimit hrom
    have hnone : l.extraBank? (windowNumber i).toNat = none :=
      Layout.extraBank?_eq_none_iff.mpr hextra _
    have hread : l.readPage (windowNumber i).toNat = .bank .rom (windowNumber i).toNat := by
      simp only [Layout.readPage, Layout.fixedPage?_eq_none hlimit, hnone, if_pos hlimit,
        Layout.romBank?, if_pos hbank]
    have hblock : windowBlock 0 i = (windowNumber i).toNat := hnumber.symm
    rw [Table.selected, Table.readPage_ofLayout, hread, Option.getD_none, windowPage, hblock,
      if_pos hbank]
  · have hblock : romWindowBanks * (page + 1) + ((windowNumber i).toNat - romWindowFirst) =
        windowBlock page i := by
      rw [hnumber, Nat.add_sub_cancel_left, windowBlock]
    rw [Table.readPage_selected_some, if_pos (inWindow_windowNumber hi), Layout.romPage, hblock]
    rfl

namespace Machine

variable {m start : Machine} {rom : Array Byte} {card : Card} {settings : Settings}
variable {sel : Option Nat} {ops : List Op} {op : Op} {page : Nat} {addr : Word} {value : Byte}

/-! ### Hits -/

/-- Whether an operation hits the page register at the address of a page: a byte
write there, through a slot that reads ROM. -/
def HitsPage (page : Nat) (m : Machine) : Op → Prop
  | .write addr _ =>
    isPageRegister addr = true ∧ (m.slots.readPage addr).isRom = true ∧ addr.toNat % 4 = page
  | _ => False

/-- Whether an operation puts an end to the page selected before it: a hit of any
page, or a reset. -/
def EndsPage (m : Machine) (op : Op) : Prop :=
  op = .reset ∨ ∃ page, m.HitsPage page op

/-- The page that a run leaves selected: that of the last hit since the last
reset, or page 0 if there is none. -/
def IsPage (start : Machine) (ops : List Op) (page : Nat) : Prop :=
  Since (fun m op => (m.step op).2) (HitsPage page) EndsPage start ops ∨
    page = 0 ∧ ∀ other,
      ¬Since (fun m op => (m.step op).2) (HitsPage other) EndsPage start ops

/-! ### The page kept and the page told -/

theorem hitsPage_write_iff (hregister : m.table.hasPageRegister = true) :
    m.HitsPage page (.write addr value) ↔
      m.selectsRomPage addr = true ∧ romPageOf addr = page := by
  simp only [HitsPage, selectsRomPage, hregister, Bool.true_and, Bool.and_eq_true, romPageOf,
    and_assoc]

theorem endsPage_write_iff (hregister : m.table.hasPageRegister = true) :
    m.EndsPage (.write addr value) ↔ m.selectsRomPage addr = true := by
  simp only [EndsPage, hitsPage_write_iff hregister, exists_and_left, exists_eq', and_true,
    reduceCtorEq, false_or]

/-- With a page register, a page is selected after an operation that hits it, or
that leaves it selected. -/
theorem selectedBy_eq_some_iff (hregister : m.table.hasPageRegister = true) :
    m.selectedBy sel op = some page ↔ m.HitsPage page op ∨ sel = some page ∧ ¬m.EndsPage op := by
  cases op with
  | write addr value =>
    rw [hitsPage_write_iff hregister, endsPage_write_iff hregister, selectedBy]
    by_cases hsel : m.selectsRomPage addr = true <;> simp [hsel]
  -- a reset selects nothing, and no other operation has a part in this
  | _ => simp [selectedBy, HitsPage, EndsPage]

theorem selectedAfter_concat (m : Machine) (sel : Option Nat) (ops : List Op) (op : Op) :
    m.selectedAfter sel (ops ++ [op]) = (m.run ops).selectedBy (m.selectedAfter sel ops) op := by
  induction ops generalizing m sel with
  | nil => rfl
  | cons first ops ih => exact ih (m.step first).2 (m.selectedBy sel first)

namespace Carries

/-- The page that a run keeps is the one that its operations tell. -/
theorem selectedAfter_eq_some_iff (h : start.Carries rom card settings none)
    (hrom : romBankLimit < card.romBanks) (ops : List Op) (page : Nat) :
    start.selectedAfter none ops = some page ↔
      Since (fun m op => (m.step op).2) (HitsPage page) EndsPage start ops := by
  refine iff_since (fun ops => start.selectedAfter none ops = some page) (fun _ => True) ?_ ?_ ops
    fun _ _ => trivial
  · exact (Option.some_ne_none page).symm
  · rintro ops op -
    rw [selectedAfter_concat]
    exact selectedBy_eq_some_iff ((h.run ops).hasPageRegister_of_lt hrom)

theorem isPage_iff (h : start.Carries rom card settings none)
    (hrom : romBankLimit < card.romBanks) (ops : List Op) (page : Nat) :
    start.IsPage ops page ↔ page = (start.selectedAfter none ops).getD 0 := by
  simp only [IsPage, ← h.selectedAfter_eq_some_iff hrom]
  rcases start.selectedAfter none ops with - | selected
  · simp
  · simp [eq_comm]

/-- What does not put an end to the page leaves the table alone. -/
theorem table_step_of_not_endsPage (h : m.Carries rom card settings sel)
    (hrom : romBankLimit < card.romBanks) (hop : ¬m.EndsPage op) :
    (m.step op).2.table = m.table := by
  have hsel : m.selectedBy sel op = sel := by
    refine Option.ext fun page => ?_
    rw [selectedBy_eq_some_iff (h.hasPageRegister_of_lt hrom)]
    exact ⟨fun hpage => (hpage.resolve_left fun hhit => hop (.inr ⟨page, hhit⟩)).1,
      fun hpage => .inr ⟨hpage, hop⟩⟩
  rw [(h.step op).table, hsel, h.table]

/-- The byte written has no part in bank switching. -/
theorem table_write_congr (h : m.Carries rom card settings sel) (addr : Word)
    (value other : Byte) :
    (m.write addr value).table = (m.write addr other).table ∧
      (m.write addr value).slots = (m.write addr other).slots := by
  have hvalue : (m.write addr value).Carries rom card settings _ := h.step (.write addr value)
  have hother : (m.write addr other).Carries rom card settings _ := h.step (.write addr other)
  -- the page selected does not depend on the byte, and the table does not on more
  have htable : (m.write addr value).table = (m.write addr other).table :=
    hvalue.table.trans hother.table.symm
  refine ⟨htable, ?_⟩
  rw [hvalue.slots, hother.slots, htable, banks_write, banks_write]

end Carries

/-! ### What the window shows -/

/-- The numbers `$40-$7F` show a page of an image of `banks` banks.

* `number`, `slot` — each number reads its bank of ROM or, past the end of the
  image, the sink, and so does every slot that shows the number;
* `rom`, `sink` — so a byte read there is a byte of the image, or one of the
  sink. -/
structure ShowsPage (rom : Array Byte) (banks page : Nat) (m : Machine) : Prop where
  number : ∀ i < romWindowBanks, m.table.readPage (windowNumber i) = windowPage banks page i
  slot : ∀ i < romWindowBanks, ∀ addr, m.slots.bankAt addr = windowNumber i →
    m.slots.readPage addr = windowPage banks page i
  rom : ∀ i < romWindowBanks, ∀ addr, m.slots.bankAt addr = windowNumber i →
    windowBlock page i < banks →
      rom[windowBlock page i * bankSize + addr.toNat % bankSize]? = some (m.read addr).1
  sink : ∀ i < romWindowBanks, ∀ addr, m.slots.bankAt addr = windowNumber i →
    banks ≤ windowBlock page i →
      (m.store.region .sink)[addr.toNat % bankSize]? = some (m.read addr).1

theorem Carries.showsPage (h : m.Carries rom card settings sel)
    (hrom : romBankLimit < card.romBanks) (hextra : card.extraBanks = 0) :
    m.ShowsPage rom card.romBanks (sel.getD 0) := by
  have hnumber : ∀ i < romWindowBanks,
      m.table.readPage (windowNumber i) = windowPage card.romBanks (sel.getD 0) i := by
    intro i hi
    rw [h.table]
    exact readPage_selected_window (l := layoutOf card settings) hrom hextra sel hi
  have hslot : ∀ i < romWindowBanks, ∀ addr, m.slots.bankAt addr = windowNumber i →
      m.slots.readPage addr = windowPage card.romBanks (sel.getD 0) i := by
    intro i hi addr hbank
    rw [Slots.readPage_eq h.slots, hbank, hnumber i hi]
  refine ⟨hnumber, hslot, ?_, ?_⟩
  · intro i hi addr hbank hblock
    have hpage := hslot i hi addr hbank
    rw [windowPage, if_pos hblock] at hpage
    rw [← h.rom]
    exact h.getElem?_read hpage
  · intro i hi addr hbank hblock
    have hpage := hslot i hi addr hbank
    rw [windowPage, if_neg (Nat.not_lt.mpr hblock)] at hpage
    have hread := h.getElem?_read hpage
    rwa [Nat.zero_mul, Nat.zero_add] at hread

/-! ### After any run -/

/-- Bank switching on a large card follows the last hit of the page register.

* `page`, `shows` — the operations tell one page, and the numbers `$40-$7F` show
  it;
* `others`, `writes` — all other numbers read, and all numbers write, what they
  did at power-on;
* `only` — nothing but hits and resets changes the table, and so a write to
  hardware does not (`hardware`);
* `value` — the byte written is irrelevant. -/
structure FollowsPage (rom : Array Byte) (banks : Nat) (start : Machine) (ops : List Op) :
    Prop where
  page : ∃! page, start.IsPage ops page
  shows : ∀ page, start.IsPage ops page → (start.run ops).ShowsPage rom banks page
  others : ∀ number, ¬Table.InWindow number →
    (start.run ops).table.readPage number = start.table.readPage number
  writes : ∀ number, (start.run ops).table.writePage number = start.table.writePage number
  only : ∀ op, ¬(start.run ops).EndsPage op →
    ((start.run ops).step op).2.table = (start.run ops).table
  hardware : ∀ addr value, (start.run ops).slots.writePage addr = .hardware →
    ((start.run ops).write addr value).table = (start.run ops).table
  value : ∀ addr value other,
    ((start.run ops).write addr value).table = ((start.run ops).write addr other).table ∧
      ((start.run ops).write addr value).slots = ((start.run ops).write addr other).slots

theorem Carries.followsPage (h : start.Carries rom card settings none)
    (hrom : romBankLimit < card.romBanks) (hextra : card.extraBanks = 0) (ops : List Op) :
    start.FollowsPage rom card.romBanks ops := by
  have hm : (start.run ops).Carries rom card settings (start.selectedAfter none ops) := h.run ops
  refine ⟨?_, ?_, ?_, ?_, ?_, ?_, hm.table_write_congr⟩
  · simp only [h.isPage_iff hrom]
    exact existsUnique_eq
  · intro page hpage
    rw [(h.isPage_iff hrom ops page).mp hpage]
    exact hm.showsPage hrom hextra
  · intro number hnumber
    rw [hm.table, h.table, Table.readPage_selected_of_not_inWindow hnumber,
      Table.readPage_selected_of_not_inWindow hnumber]
  · intro number
    rw [hm.table, h.table, Table.writePage_selected, Table.writePage_selected]
  · exact fun op => hm.table_step_of_not_endsPage hrom
  · intro addr value hpage
    have hmiss : ¬(start.run ops).EndsPage (.write addr value) := by
      rw [endsPage_write_iff (hm.hasPageRegister_of_lt hrom), hm.selectsRomPage_of_hardware hpage]
      exact Bool.false_ne_true
    exact hm.table_step_of_not_endsPage hrom hmiss

/-- **Bank switching follows the page register.**  After any run from power-on, a
card with more than 128 banks of ROM and no RAM shows the page of the last hit
since the last reset, and page 0 if there is none.  On a card with at most 128
banks of ROM, no operation ever changes the table. -/
theorem pageRegister_run (h : powerOn rom card settings = .ok start) :
    (romBankLimit < card.romBanks → card.extraBanks = 0 →
      ∀ ops, start.FollowsPage rom card.romBanks ops) ∧
    (card.romBanks ≤ romBankLimit →
      ∀ ops op, ((start.run ops).step op).2.table = (start.run ops).table) := by
  have hstart : start.Carries rom card settings none := carries_of_powerOn h []
  refine ⟨fun hrom hextra ops => hstart.followsPage hrom hextra ops, ?_⟩
  intro hrom ops op
  -- no page is ever selected
  have hm := hstart.run ops
  rw [hstart.selectedAfter_none hrom ops] at hm
  rw [(hm.step op).table, hm.selectedBy_none hrom op, hm.table]

/-- On a card that is one bank too large for the numbers that read ROM, and on the
smallest card. -/
theorem pageRegister_run_large_small :
    let large : Card := ⟨129, 0⟩
    let small : Card := ⟨1, 0⟩
    let start := boot largeImage large .standard
    let image : Array Byte := .replicate (1 * bankSize) 0
    (romBankLimit < large.romBanks ∧ large.extraBanks = 0 ∧
      powerOn largeImage large .standard = .ok start ∧
      ∀ ops, start.FollowsPage largeImage large.romBanks ops) ∧
    small.romBanks ≤ romBankLimit ∧
      powerOn image small .standard = .ok (boot image small .standard) ∧
      ∀ ops op, (((boot image small .standard).run ops).step op).2.table =
        ((boot image small .standard).run ops).table := by
  intro large small start image
  have hlarge : powerOn largeImage large .standard = .ok start :=
    powerOn_eq_ok_iff.mpr
      ⟨validate_eq_ok_iff.mpr ⟨Nat.succ_ne_zero _, Array.size_replicate⟩, rfl⟩
  have hsmall : powerOn image small .standard = .ok (boot image small .standard) :=
    powerOn_eq_ok_iff.mpr
      ⟨validate_eq_ok_iff.mpr ⟨Nat.succ_ne_zero _, Array.size_replicate⟩, rfl⟩
  have hrom : romBankLimit < large.romBanks := by decide
  have hlimit : small.romBanks ≤ romBankLimit := by decide
  exact ⟨⟨hrom, rfl, hlarge, (pageRegister_run hlarge).1 hrom rfl⟩, hlimit, hsmall,
    (pageRegister_run hsmall).2 hlimit⟩

end Machine

end PcEngine
