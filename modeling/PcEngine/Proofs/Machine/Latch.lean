/-
PcEngine/Proofs/Machine/Latch.lean

The latch keeps the byte last seen on the hardware page.

A byte read of the hardware page shows the byte that it returns, and a byte write
the byte that it carries (`Shows`).  The latch takes over each byte shown, a reset
clears it, and nothing else changes it (`latch_of_shows`, `latch_of_not_shows`).  So
after a run it holds the last byte shown since power-on or reset (`latest_iff`).

A read of the hardware page then shows the latch again, as far as no device drives
the data bus.  Some ports nobody drives (`Undriven`), and on some only the lowest
bits are driven (`Drives`).  Device and latch do not mix: the latch is masked, and a
device has no bits where the latch is let through, which for the interrupt
controller and the timer is one of their bounds.

Main result: `latch_run`, for every run from power-on.
-/
import PcEngine.Proofs.Checked.Bounded
import PcEngine.Proofs.History

namespace PcEngine

/-! ### Bits from a device and from the latch -/

/-- On the data bus, a device drives the lowest `k` bits, and the others are those of
the latch. -/
def Drives (k : Nat) (device latch value : Byte) : Prop :=
  ∀ i, value.toNat.testBit i =
    if i < k then device.toNat.testBit i else latch.toNat.testBit i

/-- A device without higher bits can be put over a masked latch. -/
theorem drives_or {k : Nat} {device latch mask : Byte} (hdevice : device.toNat < Nat.pow 2 k)
    (hmask : ∀ i < 8, mask.toNat.testBit i = decide (k ≤ i)) :
    Drives k device latch (device ||| (latch &&& mask)) := by
  intro i
  rw [UInt8.toNat_or, UInt8.toNat_and, Nat.testBit_or, Nat.testBit_and]
  have hlatch : (latch.toNat.testBit i && mask.toNat.testBit i) =
      (latch.toNat.testBit i && decide (k ≤ i)) := by
    rcases Nat.lt_or_ge i 8 with hi | hi
    · rw [hmask i hi]
    · -- a byte has no such bit
      have hbyte : latch.toNat < 2 ^ i :=
        Nat.lt_of_lt_of_le latch.toNat_lt (Nat.pow_le_pow_right (by decide) hi)
      rw [Nat.testBit_lt_two_pow hbyte, Bool.false_and, Bool.false_and]
  rw [hlatch]
  by_cases hi : i < k
  · rw [if_pos hi, decide_eq_false (Nat.not_le.mpr hi), Bool.and_false, Bool.or_false]
  · have hk : k ≤ i := Nat.le_of_not_lt hi
    have hhigh : device.toNat < 2 ^ i :=
      Nat.lt_of_lt_of_le hdevice (Nat.pow_le_pow_right (by decide) hk)
    rw [if_neg hi, decide_eq_true hk, Bool.and_true, Nat.testBit_lt_two_pow hhigh,
      Bool.false_or]

/-- Whether an address is a port that no device drives on reading: all of the sound
generator and the end of the page, one port of the video controller, six of the
palette and two of the interrupt controller. -/
def Undriven (addr : Word) : Prop :=
  match Device.ofAddress addr with
  | some .video => addr.toNat % 4 = 1
  | some .palette => addr.toNat % 8 ≠ 4 ∧ addr.toNat % 8 ≠ 5
  | some .interrupts => addr.toNat % 4 = 0 ∨ addr.toNat % 4 = 1
  | some .sound | none => True
  | some .timer | some .joypad => False

instance (addr : Word) : Decidable (Undriven addr) := by
  unfold Undriven; split <;> infer_instance

namespace Machine

variable {m start : Machine} {op : Op} {ops : List Op} {addr : Word} {value b : Byte}
variable {rom : Array Byte} {card : Card} {settings : Settings}

/-! ### What is seen on the hardware page -/

/-- Whether an operation shows a byte on the hardware page: a byte read that returns
it, or a byte write that carries it. -/
def Shows (b : Byte) (m : Machine) : Op → Prop
  | .read addr => m.slots.readPage addr = .hardware ∧ (m.read addr).1 = b
  | .write addr value => m.slots.writePage addr = .hardware ∧ value = b
  | _ => False

/-- The byte last seen on the hardware page in a run, or 0 if none has been seen since
the last reset. -/
def LastSeen (start : Machine) (ops : List Op) (b : Byte) : Prop :=
  Latest (fun m op => (m.step op).2) Shows (fun _ op => op = .reset) 0 start ops b

/-! ### The latch -/

theorem latch_read (hpage : m.slots.readPage addr = .hardware) :
    (m.read addr).2.latch = (m.read addr).1 := by
  rw [read_of_hardware hpage rfl]

theorem latch_write (hpage : m.slots.writePage addr = .hardware) (value : Byte) :
    (m.write addr value).latch = value :=
  (touchedByWrite hpage value).latch

/-- A byte shown is left in the latch. -/
theorem latch_of_shows (h : m.Shows b op) : (m.step op).2.latch = b := by
  cases op with
  | read addr =>
    obtain ⟨hpage, rfl⟩ := h
    exact latch_read hpage
  | write addr value =>
    obtain ⟨hpage, rfl⟩ := h
    exact latch_write hpage value
  | _ => exact h.elim

theorem latch_raiseVideoIf (m : Machine) (queued : Bool) :
    (m.raiseVideoIf queued).latch = m.latch := by
  cases queued <;> rfl

theorem latch_popEvent (m : Machine) : m.popEvent.2.latch = m.latch := by
  unfold popEvent
  dsimp only
  split <;> rfl

theorem latch_tick (m : Machine) (cycles : Nat) : (m.tick cycles).latch = m.latch := by
  unfold tick
  dsimp only
  split <;> rfl

theorem latch_write_of_flat {region : Region} {base span : Nat}
    (hpage : m.slots.writePage addr = .flat region base span) (value : Byte) :
    (m.write addr value).latch = m.latch := by
  simp only [write, hpage]
  split <;> simp only [selectRomPage]

/-- **Nothing but an access to the hardware page reaches the latch**, and a reset. -/
theorem latch_of_not_shows (hreset : op ≠ .reset) (h : ∀ b, ¬m.Shows b op) :
    (m.step op).2.latch = m.latch := by
  cases op with
  | read addr =>
    show (m.read addr).2.latch = m.latch
    rcases hpage : m.slots.readPage addr with ⟨region, base, span⟩ | -
    · rw [read_of_flat hpage]
    · exact absurd ⟨hpage, rfl⟩ (h (m.read addr).1)
  | write addr value =>
    rcases hpage : m.slots.writePage addr with ⟨region, base, span⟩ | -
    · exact latch_write_of_flat hpage value
    · exact absurd ⟨hpage, rfl⟩ (h value)
  | tick cycles => exact m.latch_tick _
  | reset => exact absurd rfl hreset
  | raiseEvent e => exact latch_raiseVideoIf _ _
  | serviceSprites => exact latch_raiseVideoIf _ _
  | popEvent => exact m.latch_popEvent
  | readWord addr | writeWord addr value | selectBank slot bank | nextSample channel
  | clockSamples channel clocks | setPad n pressed | restoreBackup data | video op
  | interrupts op => rfl

/-- From a machine with an empty latch, the latch holds the byte last seen. -/
theorem lastSeen_iff (h : start.latch = 0) (ops : List Op) (b : Byte) :
    start.LastSeen ops b ↔ (start.run ops).latch = b := by
  refine latest_iff ?_ ?_ ?_ h ops b
  · exact fun m op b => latch_of_shows
  · rintro m op rfl -
    rfl
  · intro m op hends
    rw [EndsShown, not_or, not_exists] at hends
    exact latch_of_not_shows hends.1 hends.2

/-! ### Reading the latch back -/

/-- What reading the hardware page finds of the latch.

* `undriven` — all of it, where no device drives the bus;
* `counter`, `running` — the bits that the timer does not drive: its counter has seven,
  and whether it runs is one;
* `mask`, `status` — those that the interrupt controller does not drive, which has
  three lines. -/
structure ReadsLatch (m : Machine) (addr : Word) : Prop where
  undriven : Undriven addr → (m.read addr).1 = m.latch
  counter : IsPort .timer 0 addr → Drives 7 m.timer.counter m.latch (m.read addr).1
  running : IsPort .timer 1 addr →
    Drives 1 (if m.timer.running then 1 else 0) m.latch (m.read addr).1
  mask : IsPort .interrupts 2 addr → Drives 3 m.interrupts.mask m.latch (m.read addr).1
  status : IsPort .interrupts 3 addr → Drives 3 m.interrupts.status m.latch (m.read addr).1

theorem fst_read (hpage : m.slots.readPage addr = .hardware) :
    (m.read addr).1 = (m.readTarget (.ofOffset (addr.toNat % bankSize))).1 := by
  simp only [read, hpage, readHardware]

theorem fst_read_of_isPort {d : Device} {n : Nat} (hpage : m.slots.readPage addr = .hardware)
    (hport : IsPort d n addr) : (m.read addr).1 = (m.readTarget (d.target n)).1 := by
  rw [read_of_isPort hpage hport]

/-- The palette drives the bus at the two halves of a colour only. -/
theorem readTarget_palette {n : Nat} (hlow : n ≠ 4) (hhigh : n ≠ 5) :
    (m.readTarget (.palette n)).1 = m.latch := by
  unfold readTarget
  split
  case h_4 e | h_5 e =>
    cases e
    contradiction
  all_goals first | rfl | contradiction

theorem read_undriven (hpage : m.slots.readPage addr = .hardware) (h : Undriven addr) :
    (m.read addr).1 = m.latch := by
  unfold Undriven at h
  split at h
  case h_1 hd =>
    rw [fst_read_of_isPort hpage ⟨hd, h⟩]
    rfl
  case h_2 hd =>
    rw [fst_read_of_isPort hpage ⟨hd, rfl⟩]
    exact readTarget_palette h.1 h.2
  case h_3 hd =>
    rcases h with h | h <;> rw [fst_read_of_isPort hpage ⟨hd, h⟩] <;> rfl
  case h_4 hd =>
    rw [fst_read_of_isPort hpage ⟨hd, rfl⟩]
    rfl
  case h_5 hd =>
    rw [fst_read hpage, ofOffset_of_none hd]
    rfl
  all_goals exact h.elim

/-- A counter of seven bits is not masked. -/
theorem counter_and {t : Timer} (h : t.Bounded) : t.counter &&& 0x7F = t.counter := by
  apply UInt8.toNat_inj.mp
  rw [UInt8.toNat_and]
  exact Nat.and_two_pow_sub_one_of_lt_two_pow (n := 7) (Nat.lt_succ_of_le h.counter)

theorem Bounded.readsLatch (h : m.Bounded) (hpage : m.slots.readPage addr = .hardware) :
    m.ReadsLatch addr := by
  have hlines : Interrupt.linesMask.toNat < 2 ^ 3 := by decide
  refine ⟨read_undriven hpage, ?_, ?_, ?_, ?_⟩
  · intro hport
    rw [fst_read_of_isPort hpage hport]
    show Drives 7 m.timer.counter m.latch ((m.timer.counter &&& 0x7F) ||| (m.latch &&& 0x80))
    rw [counter_and h.timer]
    exact drives_or (Nat.lt_succ_of_le h.timer.counter) (by decide)
  · intro hport
    rw [fst_read_of_isPort hpage hport]
    refine drives_or ?_ (by decide)
    split <;> decide
  · intro hport
    rw [fst_read_of_isPort hpage hport]
    exact drives_or (Nat.lt_of_le_of_lt h.interrupts.mask hlines) (by decide)
  · intro hport
    rw [fst_read_of_isPort hpage hport]
    exact drives_or (Nat.lt_of_le_of_lt h.interrupts.status hlines) (by decide)

/-! ### After any run -/

/-- What the latch of a machine remembers of a run.

* `latest` — the byte last seen on the hardware page;
* `kept` — an operation that shows no byte there leaves it alone;
* `reads` — it is what reads of the hardware page find, except for the bits that a
  device drives. -/
structure RemembersLast (start : Machine) (ops : List Op) : Prop where
  latest : ∀ b, start.LastSeen ops b ↔ (start.run ops).latch = b
  kept : ∀ op, op ≠ .reset → (∀ b, ¬(start.run ops).Shows b op) →
    ((start.run ops).step op).2.latch = (start.run ops).latch
  reads : ∀ addr, (start.run ops).slots.readPage addr = .hardware →
    (start.run ops).ReadsLatch addr

/-- **The latch is the byte last seen on the hardware page**, after every run from
power-on. -/
theorem latch_run (h : powerOn rom card settings = .ok start) (ops : List Op) :
    start.RemembersLast ops := by
  obtain ⟨-, rfl⟩ := powerOn_eq_ok_iff.mp h
  have hbounded := (bounded_boot rom card settings).run ops
  exact ⟨lastSeen_iff rfl ops, fun op => latch_of_not_shows, fun addr => hbounded.readsLatch⟩

/-- A byte written to the sound generator gives the highest bit of a read of the timer's
counter. -/
theorem latch_run_counter :
    let start := boot largeImage largeCard .standard
    let ops : List Op := [.write 0x0800 0xD5]
    powerOn largeImage largeCard .standard = .ok start ∧ start.RemembersLast ops ∧
      start.LastSeen ops 0xD5 ∧
      (start.run ops).slots.readPage 0x0C00 = .hardware ∧
      Drives 7 (start.run ops).timer.counter 0xD5 ((start.run ops).read 0x0C00).1 := by
  intro start ops
  have hstart := carries_of_powerOn powerOn_largeCard []
  have hops := carries_of_powerOn powerOn_largeCard ops
  have hpage : start.slots.writePage 0x0800 = .hardware :=
    (hstart.hardware_iff _).mpr ((hstart.readPage_eq_hardware_iff _).mpr rfl)
  have hlatch : (start.run ops).latch = 0xD5 := latch_write hpage 0xD5
  have hbank : (start.run ops).slots.bankAt 0x0C00 = 0xFF := by
    show (start.write 0x0800 0xD5).slots.banks[_] = 0xFF
    rw [banks_write]
    rfl
  have hpage' := (hops.readPage_eq_hardware_iff 0x0C00).mpr hbank
  have hrun := latch_run powerOn_largeCard ops
  have hcounter := (hrun.reads 0x0C00 hpage').counter (by decide)
  rw [hlatch] at hcounter
  exact ⟨powerOn_largeCard, hrun, (hrun.latest 0xD5).mpr hlatch, hpage', hcounter⟩

end Machine

end PcEngine
