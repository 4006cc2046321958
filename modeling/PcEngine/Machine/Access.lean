/-
PcEngine/Machine/Access.lean

Memory accesses of the processor.

A byte access looks up the page of its slot: on a flat page it reads or writes
one cell, on the hardware page it goes to a device.  On a card with a page
register, writing to the register's four addresses through a slot that reads
ROM also selects a page; the byte then goes where it would have gone anyway.

A word access takes both bytes from the page of the low byte and never looks at
a device.  So the high byte of a word at the end of a page is the cell behind
the page, not the first cell of the next slot, and a word access through the
hardware page stays in the sink.
-/
import PcEngine.AddressSpace
import PcEngine.Machine.Hardware

namespace PcEngine

/-- The first of the four window offsets at which the page register answers. -/
def pageRegisterOffset : Nat := 0x1FF0

/-- Whether an address is one of the page register's, whatever its slot. -/
def isPageRegister (addr : Word) : Bool :=
  pageRegisterOffset ≤ addr.toNat % bankSize && addr.toNat % bankSize < pageRegisterOffset + 4

namespace Machine

/-! ### Slots -/

/-- Make a slot show a bank. -/
def selectBank (m : Machine) (slot : Nat) (bank : Byte) : Machine :=
  { m with slots := m.slots.select m.table slot bank }

/-- Select a page of ROM, and let every slot see it. -/
def selectRomPage (m : Machine) (page : Nat) : Machine :=
  let table := m.table.selectRomPage page
  { m with table := table, slots := m.slots.refresh table }

/-- Whether a byte written at an address selects a page of ROM. -/
def selectsRomPage (m : Machine) (addr : Word) : Bool :=
  m.table.hasPageRegister && isPageRegister addr && (m.slots.readPage addr).isRom

/-- The page of ROM that an address of the page register selects. -/
def romPageOf (addr : Word) : Nat := addr.toNat % 4

/-! ### Bytes -/

/-- Read a byte. -/
def read (m : Machine) (addr : Word) : Byte × Machine :=
  match m.slots.readPage addr with
  | .flat region base span => (m.store.peek region (base + addr.toNat % span), m)
  | .hardware => m.readHardware (addr.toNat % bankSize)

/-- Write a byte. -/
def write (m : Machine) (addr : Word) (value : Byte) : Machine :=
  match m.slots.writePage addr with
  | .flat region base span =>
    let m := if m.selectsRomPage addr then m.selectRomPage (romPageOf addr) else m
    { m with store := m.store.poke region (base + addr.toNat % span) value }
  | .hardware => m.writeHardware (addr.toNat % bankSize) value

/-- What reading a byte reports. -/
def readNotices (m : Machine) (addr : Word) : List Notice :=
  match m.slots.readPage addr with
  | .flat .. => []
  | .hardware => readHardwareNotices (addr.toNat % bankSize)

/-- What writing a byte reports. -/
def writeNotices (m : Machine) (addr : Word) (value : Byte) : List Notice :=
  match m.slots.writePage addr with
  | .flat .. =>
    if m.selectsRomPage addr then
      .romPageSelected (romPageOf addr) value :: Slots.lookUpNotices m.slots.banks
    else []
  | .hardware => m.writeHardwareNotices (addr.toNat % bankSize) value

/-! ### Words -/

/-- Read a word. -/
def readWord (m : Machine) (addr : Word) : Word :=
  let (region, cell) := (m.slots.readPage addr).wordCell addr
  Word.ofBytes (m.store.peek region cell) (m.store.peek region (cell + 1))

/-- Write a word. -/
def writeWord (m : Machine) (addr value : Word) : Machine :=
  let (region, cell) := (m.slots.writePage addr).wordCell addr
  { m with
    store := (m.store.poke region cell (Word.low value)).poke region (cell + 1)
      (Word.high value) }

instance : AddressSpace Machine where
  read := read
  write := write
  readWord m addr := (m.readWord addr, m)
  writeWord := writeWord

end Machine

end PcEngine
