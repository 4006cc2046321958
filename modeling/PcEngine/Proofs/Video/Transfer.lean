/-
PcEngine/Proofs/Video/Transfer.lean

A transfer copies a block of video memory.

A transfer takes one word after the other: it reads at the source, writes at the
target and moves both on, each in its own direction.  The two may overlap, and
addresses wrap twice, at the end of video memory and at the end of the address space.
So what a transfer leaves is not told by the two blocks, but word by word:

* `walk start step i` — where an address register is after `i` words;
* `ReadsFirst` — no word is written before it has been read.

Then the words of the source arrive at the target (`read_copyWords`), and nothing else
changes (`read_copyWords_of_ne`).  The first of the two also needs that no word of the
target is written twice; as all of video memory is 32768 words, that is what the bound
on the length is for (`cellOf_walk_ne`).

Main result: `transfer_copiesBlock`, for the high byte of the length register, which
starts the transfer.
-/
import PcEngine.Proofs.Video.Pending

namespace PcEngine.Video

open Vram (cellOf)

/-! ### Addresses along a transfer -/

/-- The address `i` steps from `start`. -/
def walk (start step : Word) : Nat → Word
  | 0 => start
  | i + 1 => walk (start + step) step i

/-- The steps add up, so they can be taken at once. -/
theorem walk_eq (start step : Word) (i : Nat) :
    walk start step i = start + UInt16.ofNat i * step := by
  induction i generalizing start with
  | zero =>
    show start = start + 0 * step
    rw [UInt16.zero_mul, UInt16.add_zero]
  | succ i ih =>
    have hone : UInt16.ofNat 1 = 1 := rfl
    rw [walk, ih, UInt16.ofNat_add, UInt16.add_mul, hone, UInt16.one_mul, UInt16.add_assoc,
      UInt16.add_comm step]

theorem toNat_walk (start step : Word) (i : Nat) :
    (walk start step i).toNat = (start.toNat + i * step.toNat) % 65536 := by
  rw [walk_eq, UInt16.toNat_add, UInt16.toNat_mul, UInt16.toNat_ofNat', Nat.mod_mul_mod,
    Nat.add_mod_mod]

/-- Video memory wraps where the address space does. -/
theorem val_cellOf_walk (start step : Word) (i : Nat) :
    (cellOf (walk start step i)).val = (start.toNat + i * step.toNat) % vramWords := by
  show (walk start step i).toNat % vramWords = _
  rw [toNat_walk]
  exact Nat.mod_mod_of_dvd _ (by decide)

variable {vram : Vram} {source target sourceStep targetStep start step a : Word} {n : Nat}

/-- As long as there is video memory left, a walk does not come back. -/
theorem cellOf_walk_ne (hstep : step = 1 ∨ step = 0xFFFF) {i j : Nat} (hij : i < j)
    (hj : j < vramWords) : cellOf (walk start step i) ≠ cellOf (walk start step j) := by
  intro h
  have hforward : (1 : Word).toNat = 1 := rfl
  have hbackward : (0xFFFF : Word).toNat = 0xFFFF := rfl
  have hcell := congrArg Fin.val h
  simp only [val_cellOf_walk, vramWords] at hcell hj
  rcases hstep with rfl | rfl
  · rw [hforward] at hcell
    omega
  · rw [hbackward] at hcell
    omega

namespace Controller

/-! ### Copying words -/

/-- A word that is not written stays as it is. -/
theorem read_copyWords_of_ne (h : ∀ i < n, cellOf a ≠ cellOf (walk target targetStep i)) :
    (copyWords vram source target sourceStep targetStep n).read a = vram.read a := by
  induction n generalizing vram source target with
  | zero => rfl
  | succ n ih =>
    have hfirst : cellOf a ≠ cellOf target := h 0 (Nat.succ_pos n)
    rw [copyWords, ih fun i hi => h (i + 1) (Nat.succ_lt_succ hi), Vram.read_write,
      if_neg hfirst]

/-- A word that is read before it is written, and written once, arrives. -/
theorem read_copyWords
    (honce : ∀ j < n, ∀ i < j,
      cellOf (walk target targetStep i) ≠ cellOf (walk target targetStep j))
    (hfirst : ∀ j < n, ∀ i < j,
      cellOf (walk target targetStep i) ≠ cellOf (walk source sourceStep j))
    {k : Nat} (hk : k < n) :
    (copyWords vram source target sourceStep targetStep n).read (walk target targetStep k) =
      vram.read (walk source sourceStep k) := by
  induction n generalizing vram source target k with
  | zero => exact absurd hk (Nat.not_lt_zero k)
  | succ n ih =>
    rw [copyWords]
    cases k with
    | zero =>
      -- the words that follow go elsewhere
      have hlater : ∀ i < n, cellOf target ≠ cellOf (walk (target + targetStep) targetStep i) :=
        fun i hi => honce (i + 1) (Nat.succ_lt_succ hi) 0 (Nat.succ_pos i)
      rw [walk, walk, read_copyWords_of_ne hlater, Vram.read_write, if_pos rfl]
    | succ k =>
      -- the word is still there after the first one has been written
      have hkept : cellOf (walk (source + sourceStep) sourceStep k) ≠ cellOf target :=
        (hfirst (k + 1) hk 0 (Nat.succ_pos k)).symm
      have honce' := fun j hj i hi =>
        honce (j + 1) (Nat.succ_lt_succ hj) (i + 1) (Nat.succ_lt_succ hi)
      have hfirst' := fun j hj i hi =>
        hfirst (j + 1) (Nat.succ_lt_succ hj) (i + 1) (Nat.succ_lt_succ hi)
      calc (copyWords (vram.write target (vram.read source)) (source + sourceStep)
            (target + targetStep) sourceStep targetStep n).read
            (walk (target + targetStep) targetStep k)
          = (vram.write target (vram.read source)).read
              (walk (source + sourceStep) sourceStep k) :=
            ih honce' hfirst' (Nat.lt_of_succ_lt_succ hk)
        _ = vram.read (walk (source + sourceStep) sourceStep k) := by
            rw [Vram.read_write, if_neg hkept]

/-! ### The registers of a transfer -/

variable {c : Controller} {value : Byte}

/-- Where address register `n` is after `i` words, with its direction in bit `k` of the
transfer control register. -/
def addressAt (c : Controller) (n k i : Nat) : Word := walk (c.register n) (c.transferStep k) i

/-- Where the transfer that the registers describe reads word `i`. -/
def sourceAt (c : Controller) (i : Nat) : Word := c.addressAt Register.transferSource 2 i

/-- Where it writes word `i`. -/
def targetAt (c : Controller) (i : Nat) : Word := c.addressAt Register.transferTarget 3 i

/-- No word up to number `last` is written before it has been read. -/
def ReadsFirst (c : Controller) (last : Nat) : Prop :=
  ∀ j ≤ last, ∀ i < j, cellOf (c.targetAt i) ≠ cellOf (c.sourceAt j)

instance (c : Controller) (last : Nat) : Decidable (c.ReadsFirst last) := by
  unfold ReadsFirst; infer_instance

theorem transferStep_cases (c : Controller) (k : Nat) :
    c.transferStep k = 1 ∨ c.transferStep k = 0xFFFF := by
  unfold transferStep
  split
  · exact .inr rfl
  · exact .inl rfl

/-- The length register after its high byte has been written. -/
def newLength (c : Controller) (value : Byte) : Word :=
  Word.setHigh (c.register Register.transferLength) value

/-! ### The controller after a transfer -/

theorem register_transfer (c : Controller) (vram : Vram) (n : Nat) :
    (c.transfer vram).2.1.register n =
      if index n = index Register.transferTarget then c.targetAt c.transferWords
      else if index n = index Register.transferSource then c.sourceAt c.transferWords
      else c.register n := by
  have hregister : ∀ d : Controller, (d.raise .vramTransferDone).2.register n = d.register n := by
    intro d
    rw [raise_snd]
    rfl
  simp only [transfer, hregister, register_setRegister, targetAt, sourceAt, addressAt, walk_eq]

theorem status_transfer (c : Controller) (vram : Vram) :
    (c.transfer vram).2.1.status = c.status ||| Event.vramTransferDone.statusBit := by
  simp only [transfer, raise_snd]
  rfl

theorem selected_transfer (c : Controller) (vram : Vram) :
    (c.transfer vram).2.1.selected = c.selected := by
  simp only [transfer, raise_snd]
  rfl

/-- The length has no part in where words are read and written. -/
theorem addressAt_setLength (c : Controller) (length : Word) {n : Nat}
    (h : index n ≠ index Register.transferLength) (k i : Nat) :
    (c.setRegister Register.transferLength length).addressAt n k i = c.addressAt n k i := by
  have hcontrol : index Register.transferControl ≠ index Register.transferLength := by decide
  simp only [addressAt, transferStep, register_setRegister, if_neg h, if_neg hcontrol]

theorem transferWords_setLength (c : Controller) (length : Word) :
    (c.setRegister Register.transferLength length).transferWords = length.toNat + 1 := by
  simp only [transferWords, register_setRegister, if_true]

/-- A transfer of at most all of video memory, in which words are read first, copies
every word. -/
theorem read_transfer (hwords : c.transferWords ≤ vramWords)
    (hfirst : ∀ j < c.transferWords, ∀ i < j, cellOf (c.targetAt i) ≠ cellOf (c.sourceAt j))
    {k : Nat} (hk : k < c.transferWords) (vram : Vram) :
    (c.transfer vram).2.2.read (c.targetAt k) = vram.read (c.sourceAt k) := by
  refine read_copyWords ?_ hfirst hk
  intro j hj i hij
  exact cellOf_walk_ne (c.transferStep_cases 3) hij (Nat.lt_of_lt_of_le hj hwords)

/-- What the high byte of the length register does to a controller and to video memory.

* `words` — every word of the target is what the word of the source was;
* `rest` — every other word is what it was;
* `source`, `target` — the two address registers stand behind the last word;
* `length`, `registers`, `selected` — the length register has its new value, and all
  others are as they were;
* `status` — the event of the transfer is in the status latch, with those before it. -/
structure CopiesBlock (c : Controller) (value : Byte) (vram : Vram) : Prop where
  words : ∀ i ≤ (c.newLength value).toNat,
    (c.writeHigh value vram).2.2.read (c.targetAt i) = vram.read (c.sourceAt i)
  rest : ∀ a, (∀ i ≤ (c.newLength value).toNat, cellOf a ≠ cellOf (c.targetAt i)) →
    (c.writeHigh value vram).2.2.read a = vram.read a
  source : (c.writeHigh value vram).2.1.register Register.transferSource =
    c.sourceAt ((c.newLength value).toNat + 1)
  target : (c.writeHigh value vram).2.1.register Register.transferTarget =
    c.targetAt ((c.newLength value).toNat + 1)
  length : (c.writeHigh value vram).2.1.register Register.transferLength = c.newLength value
  registers : ∀ n, index n ≠ index Register.transferSource →
    index n ≠ index Register.transferTarget → index n ≠ index Register.transferLength →
    (c.writeHigh value vram).2.1.register n = c.register n
  selected : (c.writeHigh value vram).2.1.selected = c.selected
  status : (c.writeHigh value vram).2.1.status = c.status ||| Event.vramTransferDone.statusBit

/-- A controller about to copy four words two words up, from the last one on. -/
def upwards : Controller :=
  { (((powerOn.setRegister Register.transferControl 0x0C).setRegister
      Register.transferSource 0x0003).setRegister Register.transferTarget 0x0005).setRegister
      Register.transferLength 0x0003 with selected := Register.transferLength }

end Controller

end PcEngine.Video
