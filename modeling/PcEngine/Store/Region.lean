/-
PcEngine/Store/Region.lean

The byte-addressed memories behind the logical address space, and their sizes.

* `rom` — the image on the card, any number of banks;
* `ram` — 8 KiB of work RAM;
* `backupRam` — 2 KiB of battery-backed RAM;
* `extraRam` — RAM on the card, any number of banks, often none;
* `sink` — where accesses go that have nowhere else to go: unmapped banks and
  writes aimed at ROM.  It is one bank plus a few bytes for word accesses
  through a slot that shows the hardware page.
-/
import PcEngine.Word

namespace PcEngine

/-- A byte-addressed memory of the machine. -/
inductive Region where
  | rom
  | ram
  | backupRam
  | extraRam
  | sink
  deriving DecidableEq

/-! ### Sizes in bytes -/

/-- One bank, and the window through which a slot shows it. -/
def bankSize : Nat := 8192

def ramSize : Nat := 8192

def backupRamSize : Nat := 2048

/-- How far into the sink a word access through the hardware page is moved. -/
def trapOffset : Nat := 4

def sinkSize : Nat := bankSize + trapOffset

/-- What a read past the end of a region returns. -/
def openBus : Byte := 0xFF

end PcEngine
