/-
PcEngine/Bank/Page.lean

What a bank number, or a slot that shows it, points to.

A flat page is a stretch of a region: `span` cells from `base` on, repeated as
often as it takes to fill the 8 KiB window.  The hardware page is not memory;
byte accesses to it go to the devices.

Word accesses do not look at devices.  `Page.wordCell` is the cell they start
from: the byte cell on a flat page, and a cell of the sink, moved up by
`trapOffset`, on the hardware page.
-/
import PcEngine.Store.Region

namespace PcEngine

/-- What is seen through a window of the address space. -/
inductive Page where
  | flat (region : Region) (base span : Nat)
  | hardware
  deriving DecidableEq

namespace Page

/-- A whole bank of a region. -/
def bank (region : Region) (block : Nat) : Page :=
  .flat region (block * bankSize) bankSize

/-- Where unmapped banks and writes to ROM go. -/
def sink : Page := bank .sink 0

/-- The 2 KiB of backup RAM, repeated four times. -/
def backup : Page := .flat .backupRam 0 backupRamSize

/-- Whether this is a stretch of the ROM image. -/
def isRom : Page → Bool
  | .flat .rom _ _ => true
  | _ => false

/-- The cell at which a word access at an address starts. -/
def wordCell (page : Page) (addr : Word) : Region × Nat :=
  match page with
  | .flat region base span => (region, base + addr.toNat % span)
  | .hardware => (.sink, trapOffset + addr.toNat % bankSize)

end Page

end PcEngine
