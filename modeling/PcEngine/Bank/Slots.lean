/-
PcEngine/Bank/Slots.lean

The eight slots of the logical address space.

The top three bits of an address pick a slot, and the slot's mapping register
picks the bank number that is visible there.  A slot remembers the pages that
its number points to, so that an access needs no look-up in the bank table;
after the table has changed, `Slots.refresh` looks all of them up again.
-/
import PcEngine.Bank.Table
import PcEngine.Notice

namespace PcEngine

def slotCount : Nat := 8

/-- How many address bits lie below the slot number. -/
def slotShift : Nat := 13

/-- The mapping registers, and the pages they show.

* `banks` — the eight mapping registers;
* `readPages`, `writePages` — what each slot shows. -/
structure Slots where
  banks : Vector Byte slotCount
  readPages : Vector Page slotCount
  writePages : Vector Page slotCount

namespace Slots

/-- Look up every slot's pages in the bank table. -/
def ofBanks (t : Table) (banks : Vector Byte slotCount) : Slots where
  banks := banks
  readPages := banks.map t.readPage
  writePages := banks.map t.writePage

/-- The mapping registers after power-on: the hardware page, work RAM, and the
first bank of ROM in all other slots, where the reset vector is read. -/
def powerOnBanks : Vector Byte slotCount := #v[0xFF, 0xF8, 0, 0, 0, 0, 0, 0]

def powerOn (t : Table) : Slots := ofBanks t powerOnBanks

/-- Slot number `n`, counted modulo eight. -/
def index (n : Nat) : Fin slotCount := ⟨n % slotCount, Nat.mod_lt _ (by decide)⟩

/-- The slot of an address. -/
def ofAddress (addr : Word) : Fin slotCount :=
  ⟨addr.toNat / bankSize, by
    have := addr.toNat_lt
    simp only [bankSize, slotCount]
    omega⟩

/-! ### Selecting banks -/

/-- Make slot `n` show a bank. -/
def select (s : Slots) (t : Table) (n : Nat) (bank : Byte) : Slots where
  banks := s.banks.set (index n).val bank (index n).isLt
  readPages := s.readPages.set (index n).val (t.readPage bank) (index n).isLt
  writePages := s.writePages.set (index n).val (t.writePage bank) (index n).isLt

/-- Look up all pages again, after a change of the bank table. -/
def refresh (s : Slots) (t : Table) : Slots := ofBanks t s.banks

/-! ### What is visible -/

/-- The mapping register of slot `n`. -/
def bank (s : Slots) (n : Nat) : Byte := s.banks[index n]

/-- The mapping register of the slot of an address. -/
def bankAt (s : Slots) (addr : Word) : Byte := s.banks[ofAddress addr]

/-- The page that reading at an address sees. -/
def readPage (s : Slots) (addr : Word) : Page := s.readPages[ofAddress addr]

/-- The page that writing at an address reaches. -/
def writePage (s : Slots) (addr : Word) : Page := s.writePages[ofAddress addr]

/-- The pages of slot `n`, for reading and for writing. -/
def pages (s : Slots) (n : Nat) : Page × Page :=
  (s.readPages[index n], s.writePages[index n])

/-! ### Reports -/

/-- Selecting a bank is reported. -/
def selectNotices (n : Nat) (bank : Byte) : List Notice := [.bankSelected (index n).val bank]

/-- Looking up all pages is reported as selecting every slot's bank. -/
def lookUpNotices (banks : Vector Byte slotCount) : List Notice :=
  List.ofFn fun i : Fin slotCount => .bankSelected i.val (banks.get i)

end Slots

end PcEngine
