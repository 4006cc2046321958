/-
PcEngine/Proofs/Timer.lean

A running timer, told by the cycles since its start.

What the timer holds is a function of three numbers: the reload value `r`, the
threshold `T` of the divider, and the cycles `S` that have passed since the start
(`counted`).  The divider has been full `S / T` times, and each time the counter
went down by one, from zero back to `r`: so it stands at `r - S / T % (r + 1)`, and
it has counted down from zero `S / T / (r + 1)` times.

Letting cycles pass adds them to `S` (`advance_counted`).  How they are split does
not matter, since a sum does not remember its parts.
-/
import PcEngine.Timer

namespace PcEngine.Timer

/-- A timer `S` cycles after its start, with reload value `r` and threshold `T`. -/
def counted (r : Byte) (T S : Nat) : Timer where
  reload := r
  counter := r - UInt8.ofNat (S / T % (r.toNat + 1))
  running := true
  cycles := S % T
  threshold := T

variable {r : Byte} {T : Nat}

/-- Taking away a number that is small enough. -/
theorem toNat_sub_ofNat {a : Byte} {n : Nat} (h : n ≤ a.toNat) :
    (a - UInt8.ofNat n).toNat = a.toNat - n := by
  have ha := a.toNat_lt
  have hn : (UInt8.ofNat n).toNat = n := by
    rw [UInt8.toNat_ofNat']
    exact Nat.mod_eq_of_lt (by omega)
  rw [UInt8.toNat_sub_of_le, hn]
  rw [UInt8.le_iff_toNat_le, hn]
  exact h

theorem toNat_counter_counted (S : Nat) :
    (counted r T S).counter.toNat = r.toNat - S / T % (r.toNat + 1) :=
  toNat_sub_ofNat (Nat.le_of_lt_succ (Nat.mod_lt _ (Nat.succ_pos _)))

/-! ### Counts and periods

`k` counts have been made, and `c` more are made, in periods of `p` counts. -/

section

variable {k c p : Nat}

theorem add_eq_periods (k c p : Nat) : k + c = p * (k / p) + (k % p + c) := by
  rw [← Nat.add_assoc, Nat.div_add_mod]

/-- The period is not over. -/
theorem counts_of_lt (h : k % p + c < p) :
    (k + c) / p = k / p ∧ (k + c) % p = k % p + c := by
  have hpos : 0 < p := by omega
  rw [add_eq_periods k c p]
  constructor
  · rw [Nat.mul_add_div hpos, Nat.div_eq_of_lt h, Nat.add_zero]
  · rw [Nat.mul_add_mod, Nat.mod_eq_of_lt h]

/-- The period is over, and others may be. -/
theorem counts_of_le (hpos : 0 < p) (h : p ≤ k % p + c) :
    k / p < (k + c) / p ∧ (k + c) % p = (k % p + c - p) % p := by
  rw [add_eq_periods k c p]
  constructor
  · rw [Nat.mul_add_div hpos]
    exact Nat.lt_add_of_pos_right (Nat.div_pos h hpos)
  · rw [Nat.mul_add_mod, Nat.mod_eq_sub_mod h]

end

/-! ### Time passing -/

section

variable {t : Timer} {n : Nat}

theorem advance_of_lt (hrun : t.running = true)
    (h : (t.cycles + n) / t.threshold < t.counter.toNat + 1) :
    t.advance n = (false, { t with
      cycles := (t.cycles + n) % t.threshold
      counter := t.counter - UInt8.ofNat ((t.cycles + n) / t.threshold) }) := by
  simp only [advance, hrun, Bool.not_true, Bool.false_eq_true, if_false, if_pos h]

theorem advance_of_le (hrun : t.running = true)
    (h : t.counter.toNat + 1 ≤ (t.cycles + n) / t.threshold) :
    t.advance n = (true, { t with
      cycles := (t.cycles + n) % t.threshold
      counter := t.reload - UInt8.ofNat
        (((t.cycles + n) / t.threshold - (t.counter.toNat + 1)) % (t.reload.toNat + 1)) }) := by
  simp only [advance, hrun, Bool.not_true, Bool.false_eq_true, if_false,
    if_neg (Nat.not_lt.mpr h)]

end

/-- How often the divider gets full, and what stays in it. -/
theorem cycles_add (hT : 0 < T) (S n : Nat) :
    (S + n) / T = S / T + (S % T + n) / T ∧ (S + n) % T = (S % T + n) % T := by
  refine ⟨?_, (Nat.mod_add_mod S T n).symm⟩
  rw [add_eq_periods S n T, Nat.mul_add_div hT]

/-- Too few cycles for the counter to pass zero. -/
theorem advance_counted_of_lt (hT : 0 < T) {S n : Nat}
    (h : S / T % (r.toNat + 1) + (S % T + n) / T < r.toNat + 1) :
    (counted r T S).advance n = (false, counted r T (S + n)) := by
  obtain ⟨hdiv, hmod⟩ := cycles_add hT S n
  obtain ⟨-, hcount⟩ := counts_of_lt h
  have hcounter := toNat_counter_counted (r := r) (T := T) S
  have hbefore : (S % T + n) / T < (counted r T S).counter.toNat + 1 := by
    rw [hcounter]
    omega
  have hvalue : (counted r T S).counter - UInt8.ofNat ((S % T + n) / T) =
      r - UInt8.ofNat (S / T % (r.toNat + 1) + (S % T + n) / T) := by
    apply UInt8.toNat_inj.mp
    rw [toNat_sub_ofNat (by omega), toNat_sub_ofNat (by omega), hcounter]
    omega
  rw [advance_of_lt rfl hbefore]
  show (false, Timer.mk r ((counted r T S).counter - UInt8.ofNat ((S % T + n) / T)) true
    ((S % T + n) % T) T) = (false, counted r T (S + n))
  rw [hvalue, counted, hdiv, hmod, hcount]

/-- Enough cycles for the counter to pass zero. -/
theorem advance_counted_of_le (hT : 0 < T) {S n : Nat}
    (h : r.toNat + 1 ≤ S / T % (r.toNat + 1) + (S % T + n) / T) :
    (counted r T S).advance n = (true, counted r T (S + n)) := by
  obtain ⟨hdiv, hmod⟩ := cycles_add hT S n
  obtain ⟨-, hcount⟩ := counts_of_le (Nat.succ_pos r.toNat) h
  have hcounter := toNat_counter_counted (r := r) (T := T) S
  have hle : S / T % (r.toNat + 1) ≤ r.toNat :=
    Nat.le_of_lt_succ (Nat.mod_lt _ (Nat.succ_pos _))
  have hafter : (counted r T S).counter.toNat + 1 ≤ (S % T + n) / T := by
    rw [hcounter]
    omega
  -- the counts left over after the first time that the counter was at zero
  have hrest : (S % T + n) / T - ((counted r T S).counter.toNat + 1) =
      S / T % (r.toNat + 1) + (S % T + n) / T - (r.toNat + 1) := by
    rw [hcounter]
    omega
  rw [advance_of_le rfl hafter]
  show (true, Timer.mk r (r - UInt8.ofNat
    (((S % T + n) / T - ((counted r T S).counter.toNat + 1)) % (r.toNat + 1))) true
    ((S % T + n) % T) T) = (true, counted r T (S + n))
  rw [hrest, counted, hdiv, hmod, hcount]

/-- **Cycles add up.**  Letting `n` cycles pass takes the timer from `S` cycles after
its start to `S + n`, and says whether the counter has counted down from zero
in between. -/
theorem advance_counted (hT : 0 < T) (S n : Nat) :
    (counted r T S).advance n =
      (decide (S / T / (r.toNat + 1) < (S + n) / T / (r.toNat + 1)), counted r T (S + n)) := by
  rw [(cycles_add hT S n).1]
  rcases Nat.lt_or_ge (S / T % (r.toNat + 1) + (S % T + n) / T) (r.toNat + 1) with h | h
  · rw [advance_counted_of_lt hT h, (counts_of_lt h).1, decide_eq_false (Nat.lt_irrefl _)]
  · rw [advance_counted_of_le hT h,
      decide_eq_true (counts_of_le (Nat.succ_pos r.toNat) h).1]

/-- Starting a stopped timer starts the count. -/
theorem writeControl_of_stopped {t : Timer} {value : Byte} (hstopped : t.running = false)
    (hstarts : starts value = true) :
    t.writeControl value = counted t.reload t.threshold 0 := by
  have hzero : 0 / t.threshold % (t.reload.toNat + 1) = 0 := by
    rw [Nat.zero_div, Nat.zero_mod]
  simp only [writeControl, hstopped, hstarts, Bool.not_false, Bool.and_self, if_true, counted,
    hzero, Nat.zero_mod]
  simp

end PcEngine.Timer
