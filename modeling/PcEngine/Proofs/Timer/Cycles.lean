/-
PcEngine/Proofs/Timer/Cycles.lean

Any number of cycles at once is that number of cycles one by one.

`Timer.advance` computes with a division what the hardware does cycle by cycle
(`Timer.cycle`).  The two agree as soon as the divider is not over-full, which is all
that the induction needs: taking one cycle off the front of `n + 1` of them leaves
`n` cycles for the timer after that cycle (`advance_succ`).

The counter may stand above the reload value, which can be written at any time, so a
timer is not always one of `Timer.counted`; but from the first time that it passes
zero the two descriptions meet, and the remaining counts are taken modulo the period.

The arithmetic on the way is exact (`Exact`): nothing is added up past 64 bits, nothing
is taken away from less than itself, and the two numbers that are narrowed to a byte
are bytes.

Main result: `advance_eq_repeatCycle_run`, for every timer that can be reached.
-/
import PcEngine.Proofs.Checked.Devices

namespace PcEngine.Timer

variable {t : Timer} {n : Nat}

/-! ### One cycle -/

/-- The timer with nothing in its divider, and its counter at `value`. -/
def emptied (t : Timer) (value : Byte) : Timer := { t with cycles := 0, counter := value }

theorem cycle_of_stopped (hstopped : t.running = false) : t.cycle = (false, t) := by
  simp only [cycle, hstopped, Bool.not_false, if_true]

/-- The divider takes the cycle. -/
theorem cycle_of_lt (hrun : t.running = true) (h : t.cycles + 1 < t.threshold) :
    t.cycle = (false, { t with cycles := t.cycles + 1 }) := by
  simp only [cycle, hrun, Bool.not_true, Bool.false_eq_true, if_false, if_pos h]

/-- The divider is full, and the counter passes zero. -/
theorem cycle_of_zero (hrun : t.running = true) (h : t.threshold ≤ t.cycles + 1)
    (hzero : t.counter = 0) : t.cycle = (true, t.emptied t.reload) := by
  simp only [cycle, hrun, Bool.not_true, Bool.false_eq_true, if_false,
    if_neg (Nat.not_lt.mpr h), if_pos hzero, emptied]

/-- The divider is full, and the counter goes down. -/
theorem cycle_of_ne (hrun : t.running = true) (h : t.threshold ≤ t.cycles + 1)
    (hne : t.counter ≠ 0) : t.cycle = (false, t.emptied (t.counter - 1)) := by
  simp only [cycle, hrun, Bool.not_true, Bool.false_eq_true, if_false,
    if_neg (Nat.not_lt.mpr h), if_neg hne, emptied]

/-- A cycle leaves room in the divider. -/
theorem cycles_cycle_lt (h : t.cycles < t.threshold) :
    t.cycle.2.cycles < t.cycle.2.threshold := by
  have hpos : 0 < t.threshold := Nat.zero_lt_of_lt h
  unfold cycle
  split
  · exact h
  · split
    · assumption
    · split <;> exact hpos

/-! ### The first cycle of many -/

theorem advance_of_stopped (hstopped : t.running = false) (n : Nat) : t.advance n = (false, t) := by
  simp only [advance, hstopped, Bool.not_false, if_true]

/-- No cycles change nothing. -/
theorem advance_zero (h : t.cycles < t.threshold) : t.advance 0 = (false, t) := by
  rcases hrun : t.running with - | -
  · exact advance_of_stopped hrun 0
  · have hdiv : (t.cycles + 0) / t.threshold = 0 := Nat.div_eq_of_lt h
    have hmod : (t.cycles + 0) % t.threshold = t.cycles := Nat.mod_eq_of_lt h
    have hnone : (t.cycles + 0) / t.threshold < t.counter.toNat + 1 := by
      rw [hdiv]
      exact Nat.succ_pos _
    rw [advance_of_lt hrun hnone, hdiv, hmod]
    show (false, { t with counter := t.counter - 0 }) = (false, t)
    rw [UInt8.sub_zero]

/-- A cycle that the divider has taken counts like one to come. -/
theorem advance_succ_of_running (hrun : t.running = true) (n : Nat) :
    t.advance (n + 1) = { t with cycles := t.cycles + 1 }.advance n := by
  have htotal : t.cycles + (n + 1) = t.cycles + 1 + n := by omega
  simp only [advance, hrun, htotal, Bool.not_true, Bool.false_eq_true, if_false]

section

variable {value : Byte}

/-- From an empty divider on, and the counter does not pass zero. -/
theorem advance_emptied_of_lt (hrun : t.running = true)
    (h : n / t.threshold < value.toNat + 1) :
    (t.emptied value).advance n = (false, { t with
      cycles := n % t.threshold
      counter := value - UInt8.ofNat (n / t.threshold) }) := by
  have htotal : (t.emptied value).cycles + n = n := Nat.zero_add n
  rw [← htotal] at h
  have hadvance := advance_of_lt (t := t.emptied value) hrun h
  rwa [htotal] at hadvance

/-- From an empty divider on, and the counter passes zero. -/
theorem advance_emptied_of_le (hrun : t.running = true)
    (h : value.toNat + 1 ≤ n / t.threshold) :
    (t.emptied value).advance n = (true, { t with
      cycles := n % t.threshold
      counter := t.reload - UInt8.ofNat
        ((n / t.threshold - (value.toNat + 1)) % (t.reload.toNat + 1)) }) := by
  have htotal : (t.emptied value).cycles + n = n := Nat.zero_add n
  rw [← htotal] at h
  have hadvance := advance_of_le (t := t.emptied value) hrun h
  rwa [htotal] at hadvance

end

/-- The cycle that fills the divider makes one count, and the others make theirs on an
empty divider. -/
theorem counts_of_full (h : t.cycles + 1 = t.threshold) (n : Nat) :
    (t.cycles + (n + 1)) / t.threshold = n / t.threshold + 1 ∧
      (t.cycles + (n + 1)) % t.threshold = n % t.threshold := by
  have hpos : 0 < t.threshold := h ▸ Nat.succ_pos _
  have htotal : t.cycles + (n + 1) = n + t.threshold := by omega
  rw [htotal]
  exact ⟨Nat.add_div_right n hpos, Nat.add_mod_right n t.threshold⟩

/-- If the counter passes zero with the first cycle, the rest starts a period. -/
theorem advance_succ_of_zero (hrun : t.running = true) (h : t.cycles + 1 = t.threshold)
    (hzero : t.counter = 0) (n : Nat) :
    t.advance (n + 1) = (true, ((t.emptied t.reload).advance n).2) := by
  obtain ⟨hdiv, hmod⟩ := counts_of_full h n
  have hcounter : t.counter.toNat = 0 := by
    rw [hzero]
    rfl
  have hfirst : t.counter.toNat + 1 ≤ (t.cycles + (n + 1)) / t.threshold := by
    rw [hdiv, hcounter]
    exact Nat.succ_le_succ (Nat.zero_le _)
  have hcounts : n / t.threshold + 1 - (0 + 1) = n / t.threshold := Nat.add_sub_cancel ..
  rw [advance_of_le hrun hfirst, hdiv, hmod, hcounter, hcounts]
  -- the counts left over are those of the period just started, or of a later one
  rcases Nat.lt_or_ge (n / t.threshold) (t.reload.toNat + 1) with hlt | hge
  · rw [advance_emptied_of_lt hrun hlt, Nat.mod_eq_of_lt hlt]
  · rw [advance_emptied_of_le hrun hge, Nat.mod_eq_sub_mod hge]

/-- If the counter goes down with the first cycle, the rest has one count less to
make. -/
theorem advance_succ_of_ne (hrun : t.running = true) (h : t.cycles + 1 = t.threshold)
    (hne : t.counter ≠ 0) (n : Nat) :
    t.advance (n + 1) = (t.emptied (t.counter - 1)).advance n := by
  obtain ⟨hdiv, hmod⟩ := counts_of_full h n
  have hpos : 1 ≤ t.counter.toNat :=
    Nat.one_le_iff_ne_zero.mpr fun e => hne (UInt8.toNat_inj.mp e)
  have hdown : (t.counter - 1).toNat = t.counter.toNat - 1 := toNat_sub_ofNat (n := 1) hpos
  rcases Nat.lt_or_ge (n / t.threshold + 1) (t.counter.toNat + 1) with hlt | hge
  · have hlater : n / t.threshold < (t.counter - 1).toNat + 1 := by omega
    have hvalue : t.counter - UInt8.ofNat (n / t.threshold + 1) =
        t.counter - 1 - UInt8.ofNat (n / t.threshold) := by
      apply UInt8.toNat_inj.mp
      rw [toNat_sub_ofNat (by omega), toNat_sub_ofNat (by omega), hdown]
      omega
    rw [← hdiv] at hlt
    rw [advance_of_lt hrun hlt, advance_emptied_of_lt hrun hlater, hdiv, hmod, hvalue]
  · have hlater : (t.counter - 1).toNat + 1 ≤ n / t.threshold := by omega
    have hcounts : n / t.threshold + 1 - (t.counter.toNat + 1) =
        n / t.threshold - ((t.counter - 1).toNat + 1) := by omega
    rw [← hdiv] at hge
    rw [advance_of_le hrun hge, advance_emptied_of_le hrun hlater, hdiv, hmod, hcounts]

/-- **One cycle can be taken off the front.** -/
theorem advance_succ (h : t.cycles < t.threshold) (n : Nat) :
    t.advance (n + 1) = (t.cycle.1 || (t.cycle.2.advance n).1, (t.cycle.2.advance n).2) := by
  rcases hrun : t.running with - | -
  · rw [cycle_of_stopped hrun, advance_of_stopped hrun, advance_of_stopped hrun]
    rfl
  · rcases Nat.lt_or_ge (t.cycles + 1) t.threshold with hroom | hfull
    · rw [cycle_of_lt hrun hroom, advance_succ_of_running hrun, Bool.false_or]
    · have heq : t.cycles + 1 = t.threshold := Nat.le_antisymm h hfull
      by_cases hzero : t.counter = 0
      · rw [cycle_of_zero hrun hfull hzero, advance_succ_of_zero hrun heq hzero, Bool.true_or]
      · rw [cycle_of_ne hrun hfull hzero, advance_succ_of_ne hrun heq hzero, Bool.false_or]

/-- **Cycles at once are cycles one by one.** -/
theorem advance_eq_repeatCycle (h : t.cycles < t.threshold) (n : Nat) :
    t.advance n = t.repeatCycle n := by
  induction n generalizing t with
  | zero => exact advance_zero h
  | succ n ih => rw [advance_succ h, ih (cycles_cycle_lt h), repeatCycle]

/-! ### Exact arithmetic -/

/-- How often the divider gets full within `n` cycles. -/
def counts (t : Timer) (n : Nat) : Nat := (t.cycles + n) / t.threshold

/-- The counts after the counter was last at zero, if the first `n` cycles take it there
at all. -/
def countsSince (t : Timer) (n : Nat) : Nat :=
  (t.counts n - (t.counter.toNat + 1)) % (t.reload.toNat + 1)

/-- Letting `n` cycles pass computes with exact numbers.

* `checked` — no sum is too great for 64 bits, nothing is divided by zero, and nothing is
  taken away from less than itself;
* `counts` — the counts that are taken away from the counter are a byte;
* `countsSince` — so are those that are taken away from the reload value. -/
structure Exact (t : Timer) (n : Nat) : Prop where
  checked : t.checkedAdvance n = .ok (t.advance n)
  counts : t.counts n < t.counter.toNat + 1 → (UInt8.ofNat (t.counts n)).toNat = t.counts n
  countsSince : (UInt8.ofNat (t.countsSince n)).toNat = t.countsSince n

/-- A number that is not above a byte is a byte. -/
theorem toNat_ofNat_of_le {a : Byte} {k : Nat} (h : k ≤ a.toNat) : (UInt8.ofNat k).toNat = k := by
  rw [UInt8.toNat_ofNat']
  exact Nat.mod_eq_of_lt (Nat.lt_of_le_of_lt h a.toNat_lt)

namespace Bounded

theorem exact (h : t.Bounded) (n : UInt32) : t.Exact n.toNat where
  checked := h.checkedAdvance_eq n
  counts hlt := toNat_ofNat_of_le (Nat.le_of_lt_succ hlt)
  countsSince := toNat_ofNat_of_le (Nat.le_of_lt_succ (Nat.mod_lt _ (Nat.succ_pos t.reload.toNat)))

/-- Every run keeps the timer in its bounds. -/
theorem run (h : t.Bounded) (ops : List Op) : (t.run ops).Bounded := by
  induction ops generalizing t with
  | nil => exact h
  | cons op ops ih => exact ih (h.step op)

end Bounded

/-- **A timer does at once what it would do cycle by cycle**, whatever has been done to it
before, and its arithmetic is exact. -/
theorem advance_eq_repeatCycle_run (threshold : UInt32) (ops : List Op) (n : UInt32) :
    let t := (powerOn threshold.toNat).run ops
    t.advance n.toNat = t.repeatCycle n.toNat ∧ t.Exact n.toNat := by
  intro t
  have hbounded : t.Bounded := (bounded_powerOn threshold.toNat_lt).run ops
  exact ⟨advance_eq_repeatCycle hbounded.cycles n.toNat, hbounded.exact n⟩

end PcEngine.Timer
