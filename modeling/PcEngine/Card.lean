/-
PcEngine/Card.lean

What a card says it carries, and whether its image agrees.

An image is a whole number of banks.  Some images start with a 512-byte header
that a copying device put there; it shows in the size, and is dropped.
-/
import PcEngine.Error
import PcEngine.Store.Region

namespace PcEngine

/-- What a card carries.

* `romBanks` — banks of ROM;
* `extraBanks` — banks of RAM. -/
structure Card where
  romBanks : Nat
  extraBanks : Nat
  deriving DecidableEq

namespace Card

/-- Size of the header that some images start with. -/
def headerSize : Nat := 512

/-- The card of an image, with no RAM. -/
def ofImage (rom : Array Byte) : Except Error Card :=
  if rom.isEmpty then .error .emptyRom
  else if rom.size % bankSize ≠ 0 then .error (.misalignedRom rom.size)
  else .ok ⟨rom.size / bankSize, 0⟩

/-- Whether an image is the ROM of a card. -/
def validate (card : Card) (rom : Array Byte) : Except Error Unit :=
  if card.romBanks = 0 ∨ rom.isEmpty then .error .emptyRom
  else if rom.size % bankSize ≠ 0 then .error (.misalignedRom rom.size)
  else if rom.size / bankSize ≠ card.romBanks then
    .error (.romSizeMismatch card.romBanks (rom.size / bankSize))
  else .ok ()

/-- Drop the header, if the size says that there is one. -/
def stripHeader (image : Array Byte) : Array Byte :=
  if headerSize < image.size ∧ image.size % bankSize = headerSize then
    image.extract headerSize image.size
  else image

end Card

end PcEngine
