/-
PcEngine/Word.lean

Sixteen-bit words and their two bytes.

The data bus is one byte wide, so every 16-bit register is written one half at
a time.  A word is its low byte plus 256 times its high byte; `setLow` and
`setHigh` replace one half and keep the other.

The halves are defined by multiplication and division rather than by shifts
and masks: for bytes the two agree, and the arithmetic form is the one that
the bounds of the registers are stated in.
-/

namespace PcEngine

/-- What a memory cell holds and an access on the data bus carries. -/
abbrev Byte := UInt8

/-- A 16-bit register, a VRAM cell or a logical address. -/
abbrev Word := UInt16

namespace Word

/-! ### Halves -/

/-- The word with the given low and high bytes. -/
def ofBytes (lo hi : Byte) : Word :=
  hi.toUInt16 * 256 + lo.toUInt16

/-- The low byte. -/
def low (w : Word) : Byte := w.toUInt8

/-- The high byte. -/
def high (w : Word) : Byte := (w / 256).toUInt8

/-- Replace the low byte. -/
def setLow (w : Word) (lo : Byte) : Word := ofBytes lo (high w)

/-- Replace the high byte. -/
def setHigh (w : Word) (hi : Byte) : Word := ofBytes (low w) hi

/-- Whether bit `i` is set, bit 0 being the least significant. -/
def bit (w : Word) (i : Nat) : Bool := w.toNat.testBit i

/-! ### The halves determine the word -/

theorem toNat_ofBytes (lo hi : Byte) :
    (ofBytes lo hi).toNat = hi.toNat * 256 + lo.toNat := by
  have hl := lo.toNat_lt
  have hh := hi.toNat_lt
  have h256 : (256 : UInt16).toNat = 256 := rfl
  simp only [ofBytes, UInt16.toNat_add, UInt16.toNat_mul, UInt8.toNat_toUInt16, h256]
  omega

theorem toNat_low (w : Word) : (low w).toNat = w.toNat % 256 := by
  simp [low]

theorem toNat_high (w : Word) : (high w).toNat = w.toNat / 256 := by
  have hw := w.toNat_lt
  have h256 : (256 : UInt16).toNat = 256 := rfl
  simp only [high, UInt16.toNat_toUInt8, UInt16.toNat_div, h256]
  omega

@[simp] theorem low_ofBytes (lo hi : Byte) : low (ofBytes lo hi) = lo := by
  apply UInt8.toNat_inj.mp
  rw [toNat_low, toNat_ofBytes]
  have := lo.toNat_lt
  omega

@[simp] theorem high_ofBytes (lo hi : Byte) : high (ofBytes lo hi) = hi := by
  apply UInt8.toNat_inj.mp
  rw [toNat_high, toNat_ofBytes]
  have := lo.toNat_lt
  omega

@[simp] theorem ofBytes_low_high (w : Word) : ofBytes (low w) (high w) = w := by
  apply UInt16.toNat_inj.mp
  rw [toNat_ofBytes, toNat_low, toNat_high]
  omega

/-- Replacing both bytes leaves nothing of the word. -/
theorem setHigh_setLow (w : Word) (lo hi : Byte) : setHigh (setLow w lo) hi = ofBytes lo hi := by
  rw [setHigh, setLow, low_ofBytes]

end Word

end PcEngine
