/-
PcEngine/Proofs/Machine/PalettePorts.lean

The palette through the ports of the hardware page.

Five registers of the hardware page belong to the palette, and each of them has many
addresses; the processor may use any of these (`PalettePorts`).  An operation there does
to the palette what the access does to a palette by itself, gives the same byte, and
leaves the mapping registers as they are (`Machine.PaletteStepsWith`); so a list of
operations does what the list of accesses does (`run_paletteOps`).  Nothing is asked of
the machine but that the ports are open.

Main result: colours streamed through the ports into the palette are read back
(`streamsBack_of_open`).
-/
import PcEngine.Proofs.Machine.VideoMemory
import PcEngine.Proofs.Video.PaletteStream

namespace PcEngine

open Video (Palette)

/-! ### Ports -/

/-- Five addresses at which the processor reaches the palette, if their slots show the
hardware page. -/
structure PalettePorts where
  control : Word
  indexLow : Word
  indexHigh : Word
  low : Word
  high : Word
  isControl : IsPort .palette 0 control
  isIndexLow : IsPort .palette 2 indexLow
  isIndexHigh : IsPort .palette 3 indexHigh
  isLow : IsPort .palette 4 low
  isHigh : IsPort .palette 5 high

namespace PalettePorts

/-- The first ports of a slot. -/
def ofSlot (slot : Fin slotCount) : PalettePorts where
  control := UInt16.ofNat (slot.val * bankSize + 0x400)
  indexLow := UInt16.ofNat (slot.val * bankSize + 0x402)
  indexHigh := UInt16.ofNat (slot.val * bankSize + 0x403)
  low := UInt16.ofNat (slot.val * bankSize + 0x404)
  high := UInt16.ofNat (slot.val * bankSize + 0x405)
  isControl := by revert slot; decide
  isIndexLow := by revert slot; decide
  isIndexHigh := by revert slot; decide
  isLow := by revert slot; decide
  isHigh := by revert slot; decide

/-- An access to the palette, as an operation of the processor.  There is no port that
resets the palette: it is reset with the machine. -/
def op (p : PalettePorts) : Palette.Op → Machine.Op
  | .writeControl value => .write p.control value
  | .writeIndexLow value => .write p.indexLow value
  | .writeIndexHigh value => .write p.indexHigh value
  | .writeLow value => .write p.low value
  | .writeHigh value => .write p.high value
  | .readLow => .read p.low
  | .readHigh => .read p.high
  | .reset => .reset

/-- Accesses one after the other. -/
def ops (p : PalettePorts) (accesses : List Palette.Op) : List Machine.Op := accesses.map p.op

/-- Stream words into the palette, from an entry on. -/
def upload (p : PalettePorts) (s : Word) (words : List Word) : List Machine.Op :=
  p.ops (Palette.Op.upload s words)

/-- Stream `n` colours out of the palette, from an entry on. -/
def readback (p : PalettePorts) (s : Word) (n : Nat) : List Machine.Op :=
  p.ops (Palette.Op.readback s n)

/-- Whether accesses at the ports go to the hardware page. -/
structure Open (p : PalettePorts) (s : Slots) : Prop where
  control : s.writePage p.control = .hardware
  indexLow : s.writePage p.indexLow = .hardware
  indexHigh : s.writePage p.indexHigh = .hardware
  writeLow : s.writePage p.low = .hardware
  writeHigh : s.writePage p.high = .hardware
  readLow : s.readPage p.low = .hardware
  readHigh : s.readPage p.high = .hardware

/-- On a machine that can be reached, the ports of a slot that shows the hardware page
are open. -/
theorem open_ofSlot {m : Machine} {slot : Fin slotCount} (hreach : m.Reachable)
    (hbank : m.slots.banks.get slot = 0xFF) : (ofSlot slot).Open m.slots := by
  have hslot : ∀ slot : Fin slotCount, Slots.ofAddress (ofSlot slot).control = slot ∧
      Slots.ofAddress (ofSlot slot).indexLow = slot ∧
      Slots.ofAddress (ofSlot slot).indexHigh = slot ∧
      Slots.ofAddress (ofSlot slot).low = slot ∧ Slots.ofAddress (ofSlot slot).high = slot := by
    decide
  have hpages : ∀ addr, Slots.ofAddress addr = slot →
      m.slots.writePage addr = .hardware ∧ m.slots.readPage addr = .hardware := by
    rintro addr rfl
    exact hreach.pages_of_bankAt hbank
  obtain ⟨hcontrol, hindexLow, hindexHigh, hlow, hhigh⟩ := hslot slot
  obtain ⟨hwriteLow, hreadLow⟩ := hpages _ hlow
  obtain ⟨hwriteHigh, hreadHigh⟩ := hpages _ hhigh
  exact ⟨(hpages _ hcontrol).1, (hpages _ hindexLow).1, (hpages _ hindexHigh).1, hwriteLow,
    hwriteHigh, hreadLow, hreadHigh⟩

end PalettePorts

namespace Machine

variable {m : Machine} {p : PalettePorts}

/-! ### Step-level correspondence -/

/-- An operation does to the palette what an access does. -/
abbrev PaletteStepsWith (m : Machine) (op : Op) (access : Palette.Op) : Prop :=
  StepsAs palette (fun p access => (p.step access).2) Palette.given m op access

/-- **Every access at the ports is one to the palette.** -/
theorem paletteStepsWith_op (h : p.Open m.slots) {access : Palette.Op} (haccess : access ≠ .reset) :
    m.PaletteStepsWith (p.op access) access := by
  have hlatch : ∀ (m : Machine) value, palette { m with latch := value } = m.palette :=
    fun _ _ => rfl
  cases access with
  | writeControl value => exact stepsAs_write h.control p.isControl rfl rfl
  | writeIndexLow value => exact stepsAs_write h.indexLow p.isIndexLow rfl rfl
  | writeIndexHigh value => exact stepsAs_write h.indexHigh p.isIndexHigh rfl rfl
  | writeLow value => exact stepsAs_write h.writeLow p.isLow rfl rfl
  | writeHigh value => exact stepsAs_write h.writeHigh p.isHigh rfl rfl
  | readLow => exact stepsAs_read hlatch h.readLow p.isLow rfl rfl
  | readHigh => exact stepsAs_read hlatch h.readHigh p.isHigh rfl rfl
  | reset => exact absurd rfl haccess

/-! ### Run-level correspondence -/

/-- Any number of accesses at the ports are that number of accesses to the palette. -/
theorem run_paletteOps (h : p.Open m.slots) {accesses : List Palette.Op}
    (haccesses : .reset ∉ accesses) :
    (m.run (p.ops accesses)).palette = m.palette.run accesses ∧
      m.bytesRead (p.ops accesses) = m.palette.givenBy accesses ∧
      (m.run (p.ops accesses)).slots = m.slots := by
  refine run_of_stepsAs fun access hmem m' hslots => ?_
  have hopen : p.Open m'.slots := by
    rw [hslots]
    exact h
  refine paletteStepsWith_op hopen ?_
  rintro rfl
  exact haccesses hmem

/-! ### Streams -/

/-- **Colours streamed through the ports are read back**, on every machine on which the
ports are open, whatever is in its palette: from any entry on and any number of them, as
far as the palette holds them. -/
theorem streamsBack_of_open (h : p.Open m.slots) (s : Word) (words : List Word) :
    Palette.StreamsBack m.palette (m.run (p.upload s words)).palette
      ((m.run (p.upload s words)).run (p.readback s words.length)).palette s.toNat words
      ((m.run (p.upload s words)).bytesRead (p.readback s words.length)) := by
  obtain ⟨hafter, -, hslots⟩ := run_paletteOps h (Palette.Op.reset_notMem_upload s words)
  have hopen : p.Open (m.run (p.upload s words)).slots := by
    rw [PalettePorts.upload, hslots]
    exact h
  obtain ⟨hdone, hbytes, -⟩ :=
    run_paletteOps hopen (Palette.Op.reset_notMem_readback s words.length)
  rw [PalettePorts.readback, hdone, hbytes, PalettePorts.upload, hafter]
  exact m.palette.streamsBack s words

/-- Three colours from the last entry on: the index goes on at the first entry. -/
theorem streamsBack_of_open_lastEntry :
    let start := boot largeImage largeCard .standard
    let ports := PalettePorts.ofSlot (Slots.index 0)
    let words : List Word := [0x0134, 0xFEAA, 0xFFFF]
    start.Reachable ∧ ports.Open start.slots ∧ words.length ≤ Video.paletteSize ∧
      Palette.StreamsBack start.palette (start.run (ports.upload 511 words)).palette
        ((start.run (ports.upload 511 words)).run (ports.readback 511 words.length)).palette 511
        words ((start.run (ports.upload 511 words)).bytesRead
          (ports.readback 511 words.length)) := by
  intro start ports words
  have hreach : start.Reachable := reachable_run .standard validate_largeCard []
  have hopen : ports.Open start.slots := PalettePorts.open_ofSlot hreach rfl
  exact ⟨hreach, hopen, by decide, streamsBack_of_open hopen 511 words⟩

end Machine

end PcEngine
