/-
PcEngine/Proofs/Checked/Palette.lean

The palette stays in its bounds, and so never fails.

The index is below 512, and so is every colour (`Palette.Bounded`): of both words
the high byte is written with its lowest bit only, and the index moves on from the
last entry to the first.  So the checked accesses to a colour, which look up the entry
without reducing the index, do what the total ones do (`Bounded.checkedWriteLow_eq` and
the three after it).  The other accesses look nothing up.
-/
import PcEngine.Proofs.Checked.Basic
import PcEngine.Video.Palette

namespace PcEngine.Video.Palette

variable {p : Palette}

/-! ### The palette in its bounds -/

/-- Index and colours have nine bits. -/
structure Bounded (p : Palette) : Prop where
  index : p.index.toNat < paletteSize
  entry : ∀ n, (p.entry n).toNat < paletteSize

theorem bounded_powerOn : powerOn.Bounded where
  index := by decide
  entry n := by
    simp only [entry, powerOn, Fin.getElem_fin, Vector.getElem_replicate]
    decide

theorem entry_setCurrent (p : Palette) (colour : Word) (n : Nat) :
    (p.setCurrent colour).entry n =
      if position n = position p.index.toNat then colour else p.entry n := by
  simp only [entry, setCurrent, Fin.getElem_fin, Vector.getElem_set]
  by_cases h : position n = position p.index.toNat
  · simp [h]
  · have hne : (position p.index.toNat).val ≠ (position n).val := fun e => h (Fin.ext e.symm)
    simp [h, hne]

namespace Bounded

theorem setCurrent (h : p.Bounded) {colour : Word} (hcolour : colour.toNat < paletteSize) :
    (p.setCurrent colour).Bounded where
  index := h.index
  entry n := by
    rw [entry_setCurrent]
    split
    · exact hcolour
    · exact h.entry n

theorem advance (h : p.Bounded) : p.advance.Bounded where
  index := by
    simp only [Palette.advance, UInt16.toNat_ofNat', paletteSize]
    omega
  entry := h.entry

theorem mod_two_lt (value : Byte) : (value % 2).toNat < 2 := by
  rw [UInt8.toNat_mod]
  exact Nat.mod_lt _ (by decide)

/-- **Every operation keeps the palette in its bounds.** -/
theorem step (h : p.Bounded) (op : Op) : (p.step op).2.Bounded := by
  cases op with
  | writeIndexLow value => exact ⟨Word.setLow_lt (n := 2) h.index value, h.entry⟩
  | writeIndexHigh value => exact ⟨Word.setHigh_lt (mod_two_lt value), h.entry⟩
  | writeLow value => exact h.setCurrent (Word.setLow_lt (n := 2) (h.entry _) value)
  | writeHigh value => exact (h.setCurrent (Word.setHigh_lt (mod_two_lt value))).advance
  | readHigh => exact h.advance
  | reset => exact bounded_powerOn
  | writeControl value => exact ⟨h.index, h.entry⟩
  | readLow => exact h

end Bounded

/-! ### Checked accesses -/

/-- The selected entry. -/
def checkedCurrent (p : Palette) : Checked Word := Checked.get p.entries p.index.toNat

def checkedSetCurrent (p : Palette) (colour : Word) : Checked Palette := do
  return { p with entries := ← Checked.set p.entries p.index.toNat colour }

/-- Move on to the next entry; the index has 16 bits until it is reduced. -/
def checkedAdvance (p : Palette) : Checked Palette := do
  let next ← Checked.add UInt16.size p.index.toNat 1
  return { p with index := UInt16.ofNat (next % paletteSize) }

def checkedWriteLow (p : Palette) (value : Byte) : Checked Palette := do
  p.checkedSetCurrent (Word.setLow (← p.checkedCurrent) value)

def checkedWriteHigh (p : Palette) (value : Byte) : Checked Palette := do
  let p ← p.checkedSetCurrent (Word.setHigh (← p.checkedCurrent) (value % 2))
  p.checkedAdvance

def checkedReadLow (p : Palette) : Checked Byte := do
  return Word.low (← p.checkedCurrent)

def checkedReadHigh (p : Palette) : Checked (Byte × Palette) := do
  let colour ← p.checkedCurrent
  return (Word.high colour ||| 0xFE, ← p.checkedAdvance)

/-! ### In its bounds the palette does not fail -/

namespace Bounded

theorem checkedCurrent_eq (h : p.Bounded) : p.checkedCurrent = .ok p.current := by
  have hposition : position p.index.toNat = ⟨p.index.toNat, h.index⟩ :=
    Fin.ext (Nat.mod_eq_of_lt h.index)
  rw [checkedCurrent, Checked.get_ok h.index]
  exact congrArg (fun i => Except.ok (p.entries.get i)) hposition.symm

theorem checkedSetCurrent_eq (h : p.Bounded) (colour : Word) :
    p.checkedSetCurrent colour = .ok (p.setCurrent colour) := by
  have hposition : (position p.index.toNat).val = p.index.toNat := Nat.mod_eq_of_lt h.index
  simp only [checkedSetCurrent, Checked.set_ok h.index, Checked.ok_bind, Checked.pure_eq_ok,
    Palette.setCurrent, hposition]

theorem checkedAdvance_eq (h : p.Bounded) : p.checkedAdvance = .ok p.advance := by
  have hsum : p.index.toNat + 1 < UInt16.size := by
    have := h.index
    simp only [paletteSize, UInt16.size] at *
    omega
  rw [checkedAdvance, Checked.add_ok hsum]
  rfl

theorem checkedWriteLow_eq (h : p.Bounded) (value : Byte) :
    p.checkedWriteLow value = .ok (p.writeLow value) := by
  simp only [checkedWriteLow, h.checkedCurrent_eq, h.checkedSetCurrent_eq, Checked.ok_bind,
    writeLow]

theorem checkedWriteHigh_eq (h : p.Bounded) (value : Byte) :
    p.checkedWriteHigh value = .ok (p.writeHigh value) := by
  have hset := h.setCurrent (Word.setHigh_lt (w := p.current) (mod_two_lt value))
  simp only [checkedWriteHigh, h.checkedCurrent_eq, h.checkedSetCurrent_eq, Checked.ok_bind,
    checkedAdvance_eq hset, writeHigh]

theorem checkedReadLow_eq (h : p.Bounded) : p.checkedReadLow = .ok p.readLow := by
  rw [checkedReadLow, h.checkedCurrent_eq]
  rfl

theorem checkedReadHigh_eq (h : p.Bounded) : p.checkedReadHigh = .ok p.readHigh := by
  simp only [checkedReadHigh, h.checkedCurrent_eq, h.checkedAdvance_eq, Checked.ok_bind,
    Checked.pure_eq_ok, readHigh]

end Bounded

end PcEngine.Video.Palette
