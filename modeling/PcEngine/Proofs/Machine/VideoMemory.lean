/-
PcEngine/Proofs/Machine/VideoMemory.lean

Video memory through the ports of the hardware page.

A slot that shows the hardware page has the ports of the video controller in it, many
times over, since only the lowest bits of an address are decoded.  The processor may use
any of them (`VideoPorts`).  An operation there does to the controller and to video memory
what the access does to these two by themselves, gives the same byte, and leaves the
mapping registers as they are (`Machine.StepsWith`); so a list of operations does what the
list of accesses does (`run_ops`).

Main result: words streamed through the ports into video memory are read back, on every
machine that can be reached (`readsBack_of_shown`).
-/
import PcEngine.Proofs.Machine.Ports
import PcEngine.Proofs.Video.Upload

namespace PcEngine

open Video (Access Chip)

/-- The bytes in an answer. -/
def Answer.bytes : Answer → List Byte
  | .byte value => [value]
  | _ => []

/-! ### Ports -/

/-- Three addresses at which the processor reaches the video controller, if their slots
show the hardware page. -/
structure VideoPorts where
  select : Word
  low : Word
  high : Word
  isSelect : IsPort .video 0 select
  isLow : IsPort .video 2 low
  isHigh : IsPort .video 3 high

namespace VideoPorts

/-- The first ports of a slot. -/
def ofSlot (slot : Fin slotCount) : VideoPorts where
  select := UInt16.ofNat (slot.val * bankSize)
  low := UInt16.ofNat (slot.val * bankSize + 2)
  high := UInt16.ofNat (slot.val * bankSize + 3)
  isSelect := by revert slot; decide
  isLow := by revert slot; decide
  isHigh := by revert slot; decide

/-- An access to the controller, as an operation of the processor. -/
def op (p : VideoPorts) : Access → Machine.Op
  | .select value => .write p.select value
  | .writeLow value => .write p.low value
  | .writeHigh value => .write p.high value
  | .readLow => .read p.low
  | .readHigh => .read p.high

/-- Accesses one after the other. -/
def ops (p : VideoPorts) (accesses : List Access) : List Machine.Op := accesses.map p.op

/-- Stream words into video memory, from an address on. -/
def upload (p : VideoPorts) (a : Word) (words : List Word) : List Machine.Op :=
  p.ops (Access.upload a words)

/-- Stream `n` words out of video memory, from an address on. -/
def readback (p : VideoPorts) (a : Word) (n : Nat) : List Machine.Op :=
  p.ops (Access.readback a n)

/-- Read `n` low bytes, and no high one. -/
def readLows (p : VideoPorts) (n : Nat) : List Machine.Op := p.ops (List.replicate n .readLow)

/-- Whether the slots of the ports show the hardware page. -/
def Shown (p : VideoPorts) (m : Machine) : Prop :=
  m.slots.bankAt p.select = 0xFF ∧ m.slots.bankAt p.low = 0xFF ∧ m.slots.bankAt p.high = 0xFF

/-- Whether accesses at the ports go to the hardware page. -/
structure Open (p : VideoPorts) (s : Slots) : Prop where
  select : s.writePage p.select = .hardware
  writeLow : s.writePage p.low = .hardware
  writeHigh : s.writePage p.high = .hardware
  readLow : s.readPage p.low = .hardware
  readHigh : s.readPage p.high = .hardware

variable {p : VideoPorts} {m : Machine}

/-- A slot that shows the hardware page has ports. -/
theorem shown_ofSlot {slot : Fin slotCount} (h : m.slots.banks.get slot = 0xFF) :
    (ofSlot slot).Shown m := by
  have hslot : ∀ slot : Fin slotCount, Slots.ofAddress (ofSlot slot).select = slot ∧
      Slots.ofAddress (ofSlot slot).low = slot ∧ Slots.ofAddress (ofSlot slot).high = slot := by
    decide
  have hbank : ∀ addr, Slots.ofAddress addr = slot → m.slots.bankAt addr = 0xFF := by
    rintro addr rfl
    exact h
  obtain ⟨hselect, hlow, hhigh⟩ := hslot slot
  exact ⟨hbank _ hselect, hbank _ hlow, hbank _ hhigh⟩

/-- On a machine that can be reached, a slot shows what its mapping register says. -/
theorem Shown.open (h : p.Shown m) (hreach : m.Reachable) : p.Open m.slots := by
  obtain ⟨hselect, hlow, hhigh⟩ := h
  obtain ⟨hwriteLow, hreadLow⟩ := hreach.pages_of_bankAt hlow
  obtain ⟨hwriteHigh, hreadHigh⟩ := hreach.pages_of_bankAt hhigh
  exact ⟨(hreach.pages_of_bankAt hselect).1, hwriteLow, hwriteHigh, hreadLow, hreadHigh⟩

end VideoPorts

namespace Machine

/-- The video controller of a machine, with video memory. -/
def chip (m : Machine) : Chip := ⟨m.video, m.store.vram⟩

@[simp] theorem chip_raiseVideoIf (m : Machine) (queued : Bool) :
    (m.raiseVideoIf queued).chip = m.chip := by
  cases queued <;> rfl

/-- The bytes that operations read, one after the other. -/
def bytesRead (m : Machine) (ops : List Op) : List Byte :=
  collect (fun m op => (m.step op).2) (fun m op => (m.step op).1.bytes) m ops

/-! ### A part of the machine by itself -/

section

variable {σ ω : Type} {part : Machine → σ} {act : σ → ω → σ} {given : σ → ω → List Byte}

/-- An operation does to a part of the machine what an access does to it by itself.

* `state` — it is changed in the same way;
* `bytes` — the same byte is read;
* `slots` — the mapping registers stay as they are. -/
structure StepsAs (part : Machine → σ) (act : σ → ω → σ) (given : σ → ω → List Byte)
    (m : Machine) (op : Op) (access : ω) : Prop where
  state : part (m.step op).2 = act (part m) access
  bytes : (m.step op).1.bytes = given (part m) access
  slots : (m.step op).2.slots = m.slots

/-- Operations that each do what an access does do together what the accesses do. -/
theorem run_of_stepsAs {op : ω → Op} {accesses : List ω} {m : Machine}
    (hstep : ∀ access ∈ accesses, ∀ m' : Machine, m'.slots = m.slots →
      StepsAs part act given m' (op access) access) :
    part (m.run (accesses.map op)) = accesses.foldl act (part m) ∧
      m.bytesRead (accesses.map op) = collect act given (part m) accesses ∧
      (m.run (accesses.map op)).slots = m.slots := by
  induction accesses generalizing m with
  | nil => exact ⟨rfl, rfl, rfl⟩
  | cons access accesses ih =>
    obtain ⟨hstate, hbytes, hslots⟩ := hstep access List.mem_cons_self m rfl
    have hlater : ∀ later ∈ accesses, ∀ m' : Machine,
        m'.slots = (m.step (op access)).2.slots → StepsAs part act given m' (op later) later :=
      fun later hmem m' hm' => hstep later (List.mem_cons_of_mem _ hmem) m' (hm'.trans hslots)
    obtain ⟨hrest, hmore, hkept⟩ := ih hlater
    rw [hstate] at hrest hmore
    refine ⟨hrest, ?_, hkept.trans hslots⟩
    show (m.step (op access)).1.bytes ++ (m.step (op access)).2.bytesRead (accesses.map op) = _
    rw [hbytes, hmore]
    rfl

variable {m : Machine} {addr : Word} {device : Device} {n : Nat} {access : ω}

/-- A write at a port is an access, if the register makes of the part what the access
does. -/
theorem stepsAs_write (hpage : m.slots.writePage addr = .hardware)
    (hport : IsPort device n addr) {value : Byte}
    (htarget : part (writeTarget { m with latch := value } value (device.target n)) =
      act (part m) access)
    (hgiven : given (part m) access = []) :
    StepsAs part act given m (.write addr value) access where
  state := by
    show part (m.write addr value) = _
    rw [write_of_isPort hpage hport]
    exact htarget
  bytes := hgiven.symm
  slots := (touchedByWrite hpage value).slots

/-- So is a read, if the register also gives the same byte.  A read leaves its byte in the
latch, which the part must not have in it. -/
theorem stepsAs_read (hlatch : ∀ (m : Machine) value, part { m with latch := value } = part m)
    (hpage : m.slots.readPage addr = .hardware) (hport : IsPort device n addr)
    (htarget : part (m.readTarget (device.target n)).2 = act (part m) access)
    (hgiven : given (part m) access = [(m.readTarget (device.target n)).1]) :
    StepsAs part act given m (.read addr) access := by
  have hread := read_of_isPort hpage hport
  refine ⟨?_, ?_, ?_⟩
  · show part (m.read addr).2 = _
    rw [hread]
    exact (hlatch _ _).trans htarget
  · show [(m.read addr).1] = _
    rw [hread, hgiven]
  · show (m.read addr).2.slots = _
    rw [hread]
    exact (m.readTarget_devicesOnly (device.target n)).slots

end

/-! ### Step-level correspondence -/

/-- An operation does to the controller and to video memory what an access does. -/
abbrev StepsWith (m : Machine) (op : Op) (access : Access) : Prop :=
  StepsAs chip Chip.act Chip.given m op access

variable {m : Machine} {p : VideoPorts}

/-- **Every access at the ports is one to the controller.** -/
theorem stepsWith_op (h : p.Open m.slots) (access : Access) :
    m.StepsWith (p.op access) access := by
  have hlatch : ∀ (m : Machine) value, chip { m with latch := value } = m.chip := fun _ _ => rfl
  cases access with
  | select value => exact stepsAs_write h.select p.isSelect rfl rfl
  | writeLow value => exact stepsAs_write h.writeLow p.isLow rfl rfl
  | writeHigh value =>
    -- the high byte may start a transfer, and its end may raise the request line
    exact stepsAs_write h.writeHigh p.isHigh (chip_raiseVideoIf _ _) rfl
  | readLow => exact stepsAs_read hlatch h.readLow p.isLow rfl rfl
  | readHigh => exact stepsAs_read hlatch h.readHigh p.isHigh rfl rfl

/-! ### Run-level correspondence -/

/-- Any number of accesses at the ports are that number of accesses to the controller. -/
theorem run_ops (h : p.Open m.slots) (accesses : List Access) :
    (m.run (p.ops accesses)).chip = m.chip.run accesses ∧
      m.bytesRead (p.ops accesses) = m.chip.givenBy accesses ∧
      (m.run (p.ops accesses)).slots = m.slots := by
  refine run_of_stepsAs fun access _ m' hslots => ?_
  have hopen : p.Open m'.slots := by
    rw [hslots]
    exact h
  exact stepsWith_op hopen access

/-- The ports stay open. -/
theorem open_run (h : p.Open m.slots) (accesses : List Access) :
    p.Open (m.run (p.ops accesses)).slots := by
  rw [(run_ops h accesses).2.2]
  exact h

/-! ### Streams -/

/-- What comes of words that are streamed through the ports into video memory, from an
address on, and then streamed back.

* `bytes` — the bytes read are those of the words;
* `write`, `read` — both address registers end behind the last word, counted in 16 bits;
* `rest` — all other words of video memory are as they were;
* `low` — reading low bytes only, after any accesses and any number of times, changes
  neither the address registers nor anything else in the controller. -/
structure ReadsBack (m : Machine) (p : VideoPorts) (a : Word) (words : List Word) : Prop where
  bytes : (m.run (p.upload a words)).bytesRead (p.readback a words.length) =
    words.flatMap Word.bytes
  write : ((m.run (p.upload a words ++ p.readback a words.length)).video.register
      Video.Register.writeAddress).toNat =
    (a.toNat + words.length * m.video.addressStep.toNat) % 65536
  read : ((m.run (p.upload a words ++ p.readback a words.length)).video.register
      Video.Register.readAddress).toNat =
    (a.toNat + words.length * m.video.addressStep.toNat) % 65536
  rest : ∀ b : Word,
    (∀ i < words.length,
      b.toNat % vramWords ≠ (a.toNat + i * m.video.addressStep.toNat) % vramWords) →
    (m.run (p.upload a words ++ p.readback a words.length)).store.vram.read b =
      m.store.vram.read b
  low : ∀ accesses n,
    ((m.run (p.ops accesses)).run (p.readLows n)).video = (m.run (p.ops accesses)).video

/-- **Words streamed into video memory are read back**, on every machine that can be
reached, with any address step, if they are not longer than video memory. -/
theorem readsBack_of_shown (hreach : m.Reachable) (hshown : p.Shown m) (a : Word)
    {words : List Word} (hway : words.length * m.video.addressStep.toNat ≤ vramWords) :
    m.ReadsBack p a words := by
  have hopen := hshown.open hreach
  obtain ⟨hgiven, -, -, hwrite, hread, hvram⟩ := m.chip.readback_upload a words hway
  -- what the chip does, the machine does
  have hlast : (m.run (p.upload a words ++ p.readback a words.length)).chip =
      m.chip.run (Access.upload a words ++ Access.readback a words.length) := by
    rw [VideoPorts.upload, VideoPorts.readback, VideoPorts.ops, VideoPorts.ops, ← List.map_append]
    exact (run_ops hopen _).1
  rw [← hlast] at hwrite hread hvram
  refine ⟨?_, ?_, ?_, fun b hb => ?_, fun accesses n => ?_⟩
  · obtain ⟨hchip, -, -⟩ := run_ops hopen (Access.upload a words)
    obtain ⟨-, hbytes, -⟩ := run_ops (open_run hopen (Access.upload a words))
      (Access.readback a words.length)
    rw [VideoPorts.upload, VideoPorts.readback, hbytes, hchip, hgiven]
  · exact (congrArg UInt16.toNat hwrite).trans (Video.toNat_walk ..)
  · exact (congrArg UInt16.toNat hread).trans (Video.toNat_walk ..)
  · refine (congrArg (·.read b) hvram).trans (Vram.read_writeWords_of_ne fun i hi hcell => ?_)
    refine hb i hi ((congrArg Fin.val hcell).trans ?_)
    exact Video.val_cellOf_walk a m.video.addressStep i
  · obtain ⟨hchip, -, -⟩ := run_ops (open_run hopen accesses) (List.replicate n .readLow)
    rw [Chip.run_readLow] at hchip
    exact congrArg Chip.controller hchip

/-- Three words from the last address on: the addresses wrap after the first of them. -/
theorem readsBack_of_shown_lastAddress :
    let start := boot largeImage largeCard .standard
    let ports := VideoPorts.ofSlot (Slots.index 0)
    let words : List Word := [0x1234, 0x5678, 0x9ABC]
    start.Reachable ∧ ports.Shown start ∧
      words.length * start.video.addressStep.toNat ≤ vramWords ∧
      start.ReadsBack ports 0xFFFF words := by
  intro start ports words
  have hreach : start.Reachable := reachable_run .standard validate_largeCard []
  have hshown : ports.Shown start := VideoPorts.shown_ofSlot rfl
  have hway : words.length * start.video.addressStep.toNat ≤ vramWords := by
    show 3 * Video.Controller.powerOn.addressStep.toNat ≤ vramWords
    decide
  exact ⟨hreach, hshown, hway, readsBack_of_shown hreach hshown 0xFFFF hway⟩

end Machine

end PcEngine
