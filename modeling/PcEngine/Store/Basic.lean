/-
PcEngine/Store/Basic.lean

The store: every memory of the machine, with bounds-checked access.

A read past the end of a region gives the open-bus value and a write there is
dropped, so every access is defined for every index.  Regions never change
their size: `poke`, `fill`, `clearVolatile` and `restoreBackup` replace cells
only.
-/
import PcEngine.Store.Region
import PcEngine.Store.Vram

namespace PcEngine

/-- Every memory of the machine: the five byte-addressed regions and video
memory. -/
structure Store where
  rom : Array Byte
  ram : Array Byte
  backupRam : Array Byte
  extraRam : Array Byte
  sink : Array Byte
  vram : Vram

namespace Store

/-- A store holding a ROM image and `extraBanks` banks of card RAM, all other
cells zero. -/
def ofRom (rom : Array Byte) (extraBanks : Nat) : Store where
  rom := rom
  ram := .replicate ramSize 0
  backupRam := .replicate backupRamSize 0
  extraRam := .replicate (extraBanks * bankSize) 0
  sink := .replicate sinkSize 0
  vram := .blank

/-! ### Regions -/

/-- The cells of a region. -/
def region (s : Store) : Region → Array Byte
  | .rom => s.rom
  | .ram => s.ram
  | .backupRam => s.backupRam
  | .extraRam => s.extraRam
  | .sink => s.sink

/-- Apply a function to the cells of one region. -/
@[inline] def modify (s : Store) (r : Region) (f : Array Byte → Array Byte) : Store :=
  match r with
  | .rom => { s with rom := f s.rom }
  | .ram => { s with ram := f s.ram }
  | .backupRam => { s with backupRam := f s.backupRam }
  | .extraRam => { s with extraRam := f s.extraRam }
  | .sink => { s with sink := f s.sink }

/-- Number of whole banks of ROM. -/
def romBanks (s : Store) : Nat := s.rom.size / bankSize

/-- Number of whole banks of card RAM. -/
def extraBanks (s : Store) : Nat := s.extraRam.size / bankSize

/-! ### Cells -/

/-- Cell `i` of a region, or the open-bus value past its end. -/
def peek (s : Store) (r : Region) (i : Nat) : Byte :=
  (s.region r)[i]?.getD openBus

/-- Replace cell `i` of a region; nothing happens past its end. -/
def poke (s : Store) (r : Region) (i : Nat) (b : Byte) : Store :=
  s.modify r fun cells => cells.setIfInBounds i b

/-- Give every cell of a region the same value. -/
def fill (s : Store) (r : Region) (b : Byte) : Store :=
  s.modify r fun cells => .replicate cells.size b

/-! ### Whole-store operations -/

/-- Zero what a power cycle forgets: work RAM, card RAM, video memory and the
sink.  ROM and backup RAM keep their cells. -/
def clearVolatile (s : Store) : Store :=
  { s with
    ram := .replicate s.ram.size 0
    extraRam := .replicate s.extraRam.size 0
    sink := .replicate s.sink.size 0
    vram := .blank }

/-- Put saved bytes at the start of backup RAM; bytes that do not fit are
ignored and cells past the saved bytes keep their value. -/
def restoreBackup (s : Store) (data : Array Byte) : Store :=
  let n := min data.size s.backupRam.size
  { s with backupRam := data.extract 0 n ++ s.backupRam.extract n s.backupRam.size }

/-! ### Reading after writing -/

@[simp] theorem region_modify (s : Store) (r q : Region) (f : Array Byte → Array Byte) :
    (s.modify r f).region q = if q = r then f (s.region q) else s.region q := by
  cases r <;> cases q <;> rfl

@[simp] theorem vram_modify (s : Store) (r : Region) (f : Array Byte → Array Byte) :
    (s.modify r f).vram = s.vram := by
  cases r <;> rfl

theorem peek_poke (s : Store) (r q : Region) (i j : Nat) (b : Byte) :
    (s.poke r i b).peek q j =
      if q = r ∧ j = i ∧ i < (s.region r).size then b else s.peek q j := by
  by_cases hq : q = r
  · subst hq
    simp only [poke, peek, region_modify, if_true, Array.getElem?_setIfInBounds, true_and]
    by_cases hj : i = j
    · subst hj
      by_cases hi : i < (s.region q).size <;> simp [hi]
    · have : j ≠ i := fun e => hj e.symm
      simp [hj, this]
  · simp [poke, peek, hq]

end Store

end PcEngine
