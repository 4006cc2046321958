/-
PcEngine/Bank/Repeat.lean

Which bank of a ROM image answers for a bank number past its end.

Card ROM is decoded with as few address lines as the image needs, so a bank
number past the end of the image lands back inside it:

* an image of a power of two banks repeats;
* any other image is two chips.  The larger power of two below its size
  repeats over the lower half of the 128 bank numbers, the remainder of the
  image over the upper half.  A 48-bank image, for instance, repeats its first
  32 banks below number 64 and its last 16 from there on.
-/

namespace PcEngine

/-- The largest power of two that is at most `n`, for `n` at least one. -/
def floorPow2 (n : Nat) : Nat := Nat.pow 2 n.log2

/-- The bank of an image of `banks` banks that answers for bank number
`number`; none if there is no image. -/
def repeatedBank (number banks : Nat) : Option Nat :=
  if banks = 0 then none
  else if banks = floorPow2 banks then some (number % banks)
  else
    let lower := floorPow2 banks
    let line := number % 128
    if line < 64 then some (line % lower)
    else some ((line - 64) % (banks - lower) + lower)

end PcEngine
