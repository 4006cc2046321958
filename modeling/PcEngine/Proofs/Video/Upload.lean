/-
PcEngine/Proofs/Video/Upload.lean

Words streamed into video memory can be read back.

The processor has no other way to video memory than the ports of the controller: it
selects a register at one of them, and writes or reads the bytes of that register at two
others (`Access`).  While the data register is selected, the bytes are those of the word
in video memory that an address register points to, and with the high byte the address
register moves on by the address step.

* `writeWords`, `readWords` — what a stream of words does to video memory, and what it
  gives, told without a controller;
* `Chip.Streaming` — the data register is selected, and where the two address registers
  stand.  Each word written and each word read keeps this (`Streaming.writeWord`,
  `Streaming.readWord`), so a stream of any length does (`Streaming.writeWords`,
  `Streaming.readWords`).

A stream comes back as it went in if no word is written over by a later one
(`readWords_writeWords`).  The address steps are up to 128 words, and addresses wrap at
the end of video memory and at the end of the address space; but the first of the two
divides the second, so it is enough that the stream as a whole is not longer than video
memory (`cellOf_walk_ne_of_le`).

Main result: `readback_upload`, for any controller and any memory.
-/
import PcEngine.Proofs.History
import PcEngine.Proofs.Video.Transfer

namespace PcEngine

/-- The bytes of a word, in the order in which they are written and read. -/
def Word.bytes (w : Word) : List Byte := [Word.low w, Word.high w]

/-! ### Where a walk leads -/

namespace Video

open Vram (cellOf)

variable {a step : Word} {i j n : Nat}

/-- As long as the whole way is not longer than video memory, a walk does not come
back. -/
theorem cellOf_walk_ne_of_le (hstep : step ≠ 0) (hway : n * step.toNat ≤ vramWords)
    (hij : i < j) (hj : j < n) : cellOf (walk a step i) ≠ cellOf (walk a step j) := by
  intro h
  have hpos : 0 < step.toNat := Nat.pos_of_ne_zero fun e => hstep (UInt16.toNat_inj.mp e)
  have hcell := congrArg Fin.val h
  rw [val_cellOf_walk, val_cellOf_walk] at hcell
  have hfirst : i * step.toNat < j * step.toNat := Nat.mul_lt_mul_of_pos_right hij hpos
  have hlast : j * step.toNat < n * step.toNat := Nat.mul_lt_mul_of_pos_right hj hpos
  simp only [vramWords] at hcell hway
  omega

end Video

/-! ### Words one after the other -/

namespace Vram

open Video (walk)

variable {v : Vram} {a b step : Word} {words : List Word}

/-- Write words at addresses that are `step` apart. -/
def writeWords (v : Vram) (a step : Word) : List Word → Vram
  | [] => v
  | w :: words => (v.write a w).writeWords (a + step) step words

/-- The words at `n` addresses that are `step` apart. -/
def readWords (v : Vram) (a step : Word) : Nat → List Word
  | 0 => []
  | n + 1 => v.read a :: v.readWords (a + step) step n

/-- Words that are not written stay as they are. -/
theorem read_writeWords_of_ne (h : ∀ i < words.length, cellOf b ≠ cellOf (walk a step i)) :
    (v.writeWords a step words).read b = v.read b := by
  induction words generalizing v a with
  | nil => rfl
  | cons w words ih =>
    have hfirst : cellOf b ≠ cellOf a := h 0 (Nat.succ_pos _)
    have hlater : ∀ i < words.length, cellOf b ≠ cellOf (walk (a + step) step i) :=
      fun i hi => h (i + 1) (Nat.succ_lt_succ hi)
    rw [writeWords, ih hlater, read_write, if_neg hfirst]

/-- **Words that are written once are there afterwards.** -/
theorem readWords_writeWords
    (h : ∀ j < words.length, ∀ i < j, cellOf (walk a step i) ≠ cellOf (walk a step j)) :
    (v.writeWords a step words).readWords a step words.length = words := by
  induction words generalizing v a with
  | nil => rfl
  | cons w words ih =>
    have hlater : ∀ i < words.length, cellOf a ≠ cellOf (walk (a + step) step i) :=
      fun i hi => h (i + 1) (Nat.succ_lt_succ hi) 0 (Nat.succ_pos i)
    have hfirst : ((v.write a w).writeWords (a + step) step words).read a = w := by
      rw [read_writeWords_of_ne hlater, read_write, if_pos rfl]
    have hrest := ih (v := v.write a w) fun j hj i hi =>
      h (j + 1) (Nat.succ_lt_succ hj) (i + 1) (Nat.succ_lt_succ hi)
    show _ :: _ = _
    rw [writeWords, hfirst, hrest]

end Vram

namespace Video

/-! ### Accesses to the ports -/

/-- What the processor does at a port of the controller. -/
inductive Access where
  | select (value : Byte)
  | writeLow (value : Byte)
  | writeHigh (value : Byte)
  | readLow
  | readHigh

namespace Access

/-- The bytes of a word, written to the selected register. -/
def writeWord (w : Word) : List Access := [.writeLow (Word.low w), .writeHigh (Word.high w)]

/-- The bytes of a word, read from the selected register. -/
def readWord : List Access := [.readLow, .readHigh]

/-- Point address register `n` at a word, and select the data register. -/
def aim (n : Nat) (a : Word) : List Access :=
  .select (UInt8.ofNat n) :: writeWord a ++ [.select (UInt8.ofNat Register.data)]

/-- Stream words into video memory, from an address on. -/
def upload (a : Word) (words : List Word) : List Access :=
  aim Register.writeAddress a ++ words.flatMap writeWord

/-- Stream `n` words out of video memory, from an address on. -/
def readback (a : Word) (n : Nat) : List Access :=
  aim Register.readAddress a ++ (List.replicate n readWord).flatten

end Access

/-- A controller and the video memory that it uses. -/
structure Chip where
  controller : Controller
  vram : Vram

namespace Chip

open Access

/-- Carry out an access. -/
def act (s : Chip) : Access → Chip
  | .select value => { s with controller := s.controller.select value }
  | .writeLow value => { s with controller := s.controller.writeLow value }
  | .writeHigh value =>
    let (_, controller, vram) := s.controller.writeHigh value s.vram
    ⟨controller, vram⟩
  | .readLow => s
  | .readHigh => { s with controller := (s.controller.readHigh s.vram).2 }

/-- The byte that an access gives, if it gives one. -/
def given (s : Chip) : Access → List Byte
  | .readLow => [s.controller.readLow s.vram]
  | .readHigh => [(s.controller.readHigh s.vram).1]
  | _ => []

/-- Carry out accesses one after the other. -/
def run (s : Chip) (accesses : List Access) : Chip := accesses.foldl act s

/-- The bytes that accesses give, one after the other. -/
def givenBy (s : Chip) (accesses : List Access) : List Byte := collect act given s accesses

variable {s : Chip} {n : Nat}

theorem run_append (s : Chip) (first later : List Access) :
    s.run (first ++ later) = (s.run first).run later :=
  List.foldl_append

theorem givenBy_append (s : Chip) (first later : List Access) :
    s.givenBy (first ++ later) = s.givenBy first ++ (s.run first).givenBy later :=
  collect_append given s first later

end Chip

/-! ### Registers that only hold a word -/

namespace Controller

/-- Whether writing register `n` has no effect beyond the register. -/
def IsPlain (n : Nat) : Prop :=
  n ≠ Register.data ∧ n ≠ Register.transferLength ∧ n ≠ Register.spriteTable

instance (n : Nat) : Decidable (IsPlain n) := by
  unfold IsPlain; infer_instance

variable {c : Controller}

theorem writeHigh_of_isPlain (h : IsPlain c.selected) (value : Byte) (vram : Vram) :
    c.writeHigh value vram =
      (false, (c.setRegister c.selected
        (Word.setHigh (c.register c.selected) value)).noteGeometry, vram) := by
  obtain ⟨hdata, hlength, htable⟩ := h
  have hselected : ∀ w, (c.setRegister c.selected w).selected = c.selected := fun _ => rfl
  simp only [writeHigh, hselected, if_neg hdata, if_neg hlength, if_neg htable]

theorem register_writeLow (c : Controller) (value : Byte) (k : Nat) :
    (c.writeLow value).register k =
      if index k = index c.selected then Word.setLow (c.register c.selected) value
      else c.register k :=
  c.register_setRegister c.selected k _

/-- Write both bytes of a word to the selected register. -/
def writeWord (c : Controller) (w : Word) (vram : Vram) : Bool × Controller × Vram :=
  (c.writeLow (Word.low w)).writeHigh (Word.high w) vram

/-- The two bytes make up the word, whatever the register held. -/
theorem register_writeWord_of_isPlain (h : IsPlain c.selected) (w : Word) (vram : Vram)
    (k : Nat) :
    (c.writeWord w vram).2.1.register k =
      if index k = index c.selected then w else c.register k := by
  have hselected : (c.writeLow (Word.low w)).selected = c.selected := rfl
  have hplain : IsPlain (c.writeLow (Word.low w)).selected := h
  rw [writeWord, writeHigh_of_isPlain hplain]
  show ((c.writeLow (Word.low w)).setRegister (c.writeLow (Word.low w)).selected _).register k = _
  rw [register_setRegister, hselected, register_writeLow, register_writeLow, if_pos rfl,
    Word.setHigh_setLow, Word.ofBytes_low_high]
  split <;> rfl

theorem vram_writeWord_of_isPlain (h : IsPlain c.selected) (w : Word) (vram : Vram) :
    (c.writeWord w vram).2.2 = vram := by
  have hplain : IsPlain (c.writeLow (Word.low w)).selected := h
  rw [writeWord, writeHigh_of_isPlain hplain]

/-- The address step is told by the control register. -/
theorem addressStep_congr {d : Controller}
    (h : d.register Register.control = c.register Register.control) :
    d.addressStep = c.addressStep := by
  simp only [addressStep, h]

/-! ### The data register -/

theorem writeHigh_of_data (h : c.selected = Register.data) (value : Byte) (vram : Vram) :
    c.writeHigh value vram =
      (false,
        (c.setRegister Register.data (Word.setHigh (c.register Register.data) value)).setRegister
          Register.writeAddress (c.register Register.writeAddress + c.addressStep),
        vram.write (c.register Register.writeAddress)
          (Word.setHigh (c.register Register.data) value)) := by
  have hselected : ∀ w, (c.setRegister Register.data w).selected = Register.data := fun _ => h
  have hother : ∀ n w, index n ≠ index Register.data →
      (c.setRegister Register.data w).register n = c.register n := by
    intro n w hn
    rw [register_setRegister, if_neg hn]
  have hstep : ∀ w, (c.setRegister Register.data w).addressStep = c.addressStep :=
    fun w => addressStep_congr (hother Register.control w (by decide))
  simp only [writeHigh, h, hselected, if_true, hstep, hother Register.writeAddress _ (by decide),
    register_setRegister]

/-- The two bytes of a word write it to video memory, and the write address moves on. -/
theorem writeWord_of_data (h : c.selected = Register.data) (w : Word) (vram : Vram) :
    c.writeWord w vram =
      (false,
        ((c.writeLow (Word.low w)).setRegister Register.data w).setRegister Register.writeAddress
          (c.register Register.writeAddress + c.addressStep),
        vram.write (c.register Register.writeAddress) w) := by
  have hselected : (c.writeLow (Word.low w)).selected = Register.data := h
  have hother : ∀ n, index n ≠ index Register.data →
      (c.writeLow (Word.low w)).register n = c.register n := by
    intro n hn
    rw [register_writeLow, h, if_neg hn]
  have hdata : (c.writeLow (Word.low w)).register Register.data =
      Word.setLow (c.register Register.data) (Word.low w) := by
    rw [register_writeLow, h, if_pos rfl]
  have hstep : (c.writeLow (Word.low w)).addressStep = c.addressStep :=
    addressStep_congr (hother Register.control (by decide))
  rw [writeWord, writeHigh_of_data hselected, hdata, Word.setHigh_setLow, Word.ofBytes_low_high, hstep,
    hother Register.writeAddress (by decide)]

theorem register_writeWord_of_data (h : c.selected = Register.data) (w : Word) (vram : Vram)
    (k : Nat) :
    (c.writeWord w vram).2.1.register k =
      if index k = index Register.writeAddress then
        c.register Register.writeAddress + c.addressStep
      else if index k = index Register.data then w else c.register k := by
  rw [writeWord_of_data h]
  show (((c.writeLow (Word.low w)).setRegister Register.data w).setRegister
    Register.writeAddress _).register k = _
  rw [register_setRegister, register_setRegister, register_writeLow, h]
  split
  · rfl
  · split <;> rfl

/-- The high byte that is read moves the read address on. -/
theorem readHigh_of_data (h : c.selected = Register.data) (vram : Vram) :
    c.readHigh vram =
      (Word.high (vram.read (c.register Register.readAddress)),
        c.setRegister Register.readAddress
          (c.register Register.readAddress + c.addressStep)) :=
  if_pos h

theorem readLow_of_data (h : c.selected = Register.data) (vram : Vram) :
    c.readLow vram = Word.low (vram.read (c.register Register.readAddress)) :=
  if_pos h

end Controller

/-! ### Streams of words -/

namespace Chip

open Access

variable {s : Chip} {vram : Vram} {step write read : Word}

/-- The data register is selected, and a stream of words can go on.

* `step` — how far the address registers move with each word;
* `write`, `read` — where they stand;
* `vram` — what is in video memory. -/
structure Streaming (s : Chip) (vram : Vram) (step write read : Word) : Prop where
  selected : s.controller.selected = Register.data
  step : s.controller.addressStep = step
  write : s.controller.register Register.writeAddress = write
  read : s.controller.register Register.readAddress = read
  vram : s.vram = vram

namespace Streaming

/-- A word is written, and the write address moves on. -/
theorem writeWord (h : s.Streaming vram step write read) (w : Word) :
    (s.run (writeWord w)).Streaming (vram.write write w) step (write + step) read := by
  obtain ⟨hselected, rfl, rfl, rfl, rfl⟩ := h
  have hregister := Controller.register_writeWord_of_data hselected w s.vram
  have hcontrol := hregister Register.control
  have hwrite := hregister Register.writeAddress
  have hread := hregister Register.readAddress
  rw [if_neg (by decide), if_neg (by decide)] at hcontrol hread
  rw [if_pos rfl] at hwrite
  have hwritten := Controller.writeWord_of_data hselected w s.vram
  refine ⟨?_, Controller.addressStep_congr hcontrol, hwrite, hread, ?_⟩
  · show (s.controller.writeWord w s.vram).2.1.selected = _
    rw [hwritten]
    exact hselected
  · show (s.controller.writeWord w s.vram).2.2 = _
    rw [hwritten]

/-- A word is given, and the read address moves on. -/
theorem readWord (h : s.Streaming vram step write read) :
    (s.run readWord).Streaming vram step write (read + step) ∧
      s.givenBy readWord = (vram.read read).bytes := by
  obtain ⟨hselected, rfl, rfl, rfl, rfl⟩ := h
  have hhigh := Controller.readHigh_of_data hselected s.vram
  have hrun : s.run Access.readWord = { s with
      controller := s.controller.setRegister Register.readAddress
        (s.controller.register Register.readAddress + s.controller.addressStep) } := by
    show { s with controller := (s.controller.readHigh s.vram).2 } = _
    rw [hhigh]
  constructor
  · rw [hrun]
    refine ⟨hselected, Controller.addressStep_congr ?_, ?_, ?_, rfl⟩
    · exact (Controller.register_setRegister ..).trans (if_neg (by decide))
    · exact (Controller.register_setRegister ..).trans (if_neg (by decide))
    · exact (Controller.register_setRegister ..).trans (if_pos rfl)
  · show [s.controller.readLow s.vram] ++ ([(s.controller.readHigh s.vram).1] ++ []) = _
    rw [Controller.readLow_of_data hselected, hhigh]
    rfl

/-- Words are written one after the other. -/
theorem writeWords (h : s.Streaming vram step write read) (words : List Word) :
    (s.run (words.flatMap Access.writeWord)).Streaming (vram.writeWords write step words) step
      (walk write step words.length) read := by
  induction words generalizing s vram write with
  | nil => exact h
  | cons w words ih =>
    rw [List.flatMap_cons, run_append]
    exact ih (h.writeWord w)

/-- Words are given one after the other. -/
theorem readWords (h : s.Streaming vram step write read) (n : Nat) :
    (s.run (List.replicate n Access.readWord).flatten).Streaming vram step write
        (walk read step n) ∧
      s.givenBy (List.replicate n Access.readWord).flatten =
        (vram.readWords read step n).flatMap Word.bytes := by
  induction n generalizing s read with
  | zero => exact ⟨h, rfl⟩
  | succ n ih =>
    obtain ⟨hnext, hgiven⟩ := h.readWord
    obtain ⟨hlast, hrest⟩ := ih hnext
    rw [List.replicate_succ, List.flatten_cons, run_append, givenBy_append, hgiven, hrest]
    exact ⟨hlast, rfl⟩

end Streaming

/-! ### From an address on -/

/-- Pointing a register at a word, and then selecting the data register, does nothing to
video memory and to the other registers. -/
theorem run_aim {n : Nat} (hlt : n < registerCount) (h : Controller.IsPlain n) (s : Chip)
    (a : Word) :
    (s.run (aim n a)).controller.selected = Register.data ∧ (s.run (aim n a)).vram = s.vram ∧
      ∀ k, (s.run (aim n a)).controller.register k =
        if Controller.index k = Controller.index n then a else s.controller.register k := by
  have hselected : (s.controller.select (UInt8.ofNat n)).selected = n := by
    show (UInt8.ofNat n).toNat % registerCount = n
    rw [UInt8.toNat_ofNat', Nat.mod_mod_of_dvd n (by decide), Nat.mod_eq_of_lt hlt]
  have hplain : Controller.IsPlain (s.controller.select (UInt8.ofNat n)).selected := by
    rw [hselected]
    exact h
  refine ⟨rfl, Controller.vram_writeWord_of_isPlain hplain a s.vram, fun k => ?_⟩
  have hregister := Controller.register_writeWord_of_isPlain hplain a s.vram k
  rw [hselected] at hregister
  exact hregister

/-- Pointing the write address at a word starts a stream there. -/
theorem streaming_aim_write (s : Chip) (a : Word) :
    (s.run (aim Register.writeAddress a)).Streaming s.vram s.controller.addressStep a
      (s.controller.register Register.readAddress) := by
  obtain ⟨hselected, hvram, hregister⟩ := run_aim (n := Register.writeAddress) (by decide)
    (by decide) s a
  refine ⟨hselected, Controller.addressStep_congr ?_, ?_, ?_, hvram⟩
  · exact (hregister _).trans (if_neg (by decide))
  · exact (hregister _).trans (if_pos rfl)
  · exact (hregister _).trans (if_neg (by decide))

/-- So does pointing the read address there. -/
theorem streaming_aim_read (s : Chip) (a : Word) :
    (s.run (aim Register.readAddress a)).Streaming s.vram s.controller.addressStep
      (s.controller.register Register.writeAddress) a := by
  obtain ⟨hselected, hvram, hregister⟩ := run_aim (n := Register.readAddress) (by decide)
    (by decide) s a
  refine ⟨hselected, Controller.addressStep_congr ?_, ?_, ?_, hvram⟩
  · exact (hregister _).trans (if_neg (by decide))
  · exact (hregister _).trans (if_neg (by decide))
  · exact (hregister _).trans (if_pos rfl)

/-- An upload leaves the words in video memory, and the write address behind them. -/
theorem streaming_upload (s : Chip) (a : Word) (words : List Word) :
    (s.run (upload a words)).Streaming (s.vram.writeWords a s.controller.addressStep words)
      s.controller.addressStep (walk a s.controller.addressStep words.length)
      (s.controller.register Register.readAddress) := by
  rw [upload, run_append]
  exact (s.streaming_aim_write a).writeWords words

/-- **What has been uploaded is read back**, if it is not longer than video memory, and
both address registers end behind it. -/
theorem readback_upload (s : Chip) (a : Word) (words : List Word)
    (hway : words.length * s.controller.addressStep.toNat ≤ vramWords) :
    (s.run (upload a words)).givenBy (readback a words.length) =
        words.flatMap Word.bytes ∧
      (s.run (upload a words ++ readback a words.length)).Streaming
        (s.vram.writeWords a s.controller.addressStep words) s.controller.addressStep
        (walk a s.controller.addressStep words.length)
        (walk a s.controller.addressStep words.length) := by
  obtain ⟨-, hstep, hwrite, -, hvram⟩ := s.streaming_upload a words
  have haim := (s.run (upload a words)).streaming_aim_read a
  rw [hstep, hwrite, hvram] at haim
  obtain ⟨hlast, hgiven⟩ := haim.readWords words.length
  have honce : ∀ j < words.length, ∀ i < j,
      Vram.cellOf (walk a s.controller.addressStep i) ≠
        Vram.cellOf (walk a s.controller.addressStep j) := fun j hj i hij =>
    cellOf_walk_ne_of_le s.controller.addressStep_ne_zero hway hij hj
  rw [Vram.readWords_writeWords honce] at hgiven
  constructor
  · rw [readback, givenBy_append, hgiven]
    rfl
  · rw [run_append, readback, run_append]
    exact hlast

/-- Low bytes alone leave everything as it is. -/
theorem run_readLow (s : Chip) (n : Nat) : s.run (List.replicate n .readLow) = s := by
  induction n with
  | zero => rfl
  | succ n ih => exact ih

end Chip

end Video

end PcEngine
