/-
PcEngine/Proofs/Checked/Devices.lean

The timer, the interrupt controller and the joypads stay in their bounds, and so
never fail.

* `Timer.Bounded` — the divider is never full, and counter and reload value have
  seven bits.  The counter may be above the reload value, which can be changed at
  any time, but what is taken away from either of the two is never more than it is.
* `Interrupt.Lines.Bounded` — only the bits of lines are set, in status and mask.
* `Joypad.Bounded` — the active pad is one that the multitap scans.

In these bounds the checked operations of the timer and the joypads do what the
total ones do (`Timer.Bounded.checkedAdvance_eq`, `Joypad.Bounded.checkedWrite_eq`,
`Joypad.Bounded.checkedRead_eq`); the interrupt controller computes with single bits
only, and there is nothing to check.
-/
import PcEngine.Interrupt.Lines
import PcEngine.Joypad
import PcEngine.Proofs.Checked.Basic
import PcEngine.Proofs.Timer
import PcEngine.Store.Vram

namespace PcEngine

/-! ### The timer -/

namespace Timer

/-- A timer in its bounds.  The threshold has 32 bits. -/
structure Bounded (t : Timer) : Prop where
  threshold : 0 < t.threshold ∧ t.threshold < UInt32.size
  cycles : t.cycles < t.threshold
  counter : t.counter.toNat ≤ 127
  reload : t.reload.toNat ≤ 127

theorem bounded_powerOn {threshold : Nat} (h : threshold < UInt32.size) :
    (powerOn threshold).Bounded := by
  have hpos : 0 < max threshold 1 := Nat.le_max_right threshold 1
  have hzero : (0 : Byte).toNat ≤ 127 := by decide
  exact ⟨⟨hpos, Nat.max_lt.mpr ⟨h, by decide⟩⟩, hpos, hzero, hzero⟩

/-- Let `n` cycles pass.  Cycles and counts are added up in 64 bits; the counter is a
byte. -/
def checkedAdvance (t : Timer) (n : Nat) : Checked (Bool × Timer) := do
  if !t.running then return (false, t)
  else
    let total ← Checked.add UInt64.size t.cycles n
    let counts ← Checked.div total t.threshold
    let cycles ← Checked.mod total t.threshold
    let toFirst ← Checked.add UInt64.size t.counter.toNat 1
    if counts < toFirst then
      let counter ← Checked.subByte t.counter (UInt8.ofNat counts)
      return (false, { t with cycles := cycles, counter := counter })
    else
      let period ← Checked.add UInt64.size t.reload.toNat 1
      let rest ← Checked.mod (← Checked.sub counts toFirst) period
      let counter ← Checked.subByte t.reload (UInt8.ofNat rest)
      return (true, { t with cycles := cycles, counter := counter })

variable {t : Timer}

theorem ofNat_le {a : Byte} {n : Nat} (h : n ≤ a.toNat) : UInt8.ofNat n ≤ a := by
  rw [UInt8.le_iff_toNat_le, UInt8.toNat_ofNat']
  exact Nat.le_trans (Nat.mod_le _ _) h

namespace Bounded

theorem advance (h : t.Bounded) (n : Nat) : (t.advance n).2.Bounded := by
  have hmod := Nat.mod_lt (t.cycles + n) h.threshold.1
  rcases hrun : t.running with - | -
  · have hkept : t.advance n = (false, t) := by
      simp only [Timer.advance, hrun, Bool.not_false, if_true]
    rw [hkept]
    exact h
  · rcases Nat.lt_or_ge ((t.cycles + n) / t.threshold) (t.counter.toNat + 1) with hlt | hge
    · rw [advance_of_lt hrun hlt]
      refine ⟨h.threshold, hmod, ?_, h.reload⟩
      show (t.counter - UInt8.ofNat _).toNat ≤ 127
      rw [toNat_sub_ofNat (Nat.le_of_lt_succ hlt)]
      exact Nat.le_trans (Nat.sub_le _ _) h.counter
    · have hrest := Nat.mod_lt ((t.cycles + n) / t.threshold - (t.counter.toNat + 1))
        (Nat.succ_pos t.reload.toNat)
      rw [advance_of_le hrun hge]
      refine ⟨h.threshold, hmod, ?_, h.reload⟩
      show (t.reload - UInt8.ofNat _).toNat ≤ 127
      rw [toNat_sub_ofNat (Nat.le_of_lt_succ hrest)]
      exact Nat.le_trans (Nat.sub_le _ _) h.reload

/-- **Every operation keeps the timer in its bounds.** -/
theorem step (h : t.Bounded) (op : Op) : (t.step op).2.Bounded := by
  cases op with
  | writeReload value =>
    refine { h with reload := ?_ }
    show (value % 128).toNat ≤ 127
    rw [UInt8.toNat_mod]
    exact Nat.le_of_lt_succ (Nat.mod_lt _ (by decide))
  | writeControl value =>
    show (t.writeControl value).Bounded
    unfold writeControl
    split
    · exact ⟨h.threshold, h.threshold.1, h.reload, h.reload⟩
    · exact { h with }
  | advance cycles => exact h.advance cycles.toNat
  | reset => exact bounded_powerOn h.threshold.2

/-- **Time passing does not fail.** -/
theorem checkedAdvance_eq (h : t.Bounded) (n : UInt32) :
    t.checkedAdvance n.toNat = .ok (t.advance n.toNat) := by
  rcases hrun : t.running with - | -
  · simp only [checkedAdvance, Timer.advance, hrun, Bool.not_false, if_true, Checked.pure_eq_ok]
  · have hn := n.toNat_lt
    have hthreshold := h.threshold.2
    have hcycles := h.cycles
    have hcounter := h.counter
    have hreload := h.reload
    have htotal : t.cycles + n.toNat < UInt64.size := by
      simp only [UInt32.size, UInt64.size] at *
      omega
    have hfirst : t.counter.toNat + 1 < UInt64.size := by
      simp only [UInt64.size]
      omega
    have hperiod : t.reload.toNat + 1 < UInt64.size := by
      simp only [UInt64.size]
      omega
    simp only [checkedAdvance, hrun, Bool.not_true, Bool.false_eq_true, if_false,
      Checked.add_ok htotal, Checked.add_ok hfirst, Checked.add_ok hperiod,
      Checked.div_ok h.threshold.1, Checked.mod_ok h.threshold.1, Checked.ok_bind]
    rcases Nat.lt_or_ge ((t.cycles + n.toNat) / t.threshold) (t.counter.toNat + 1) with hlt | hge
    · rw [if_pos hlt, Checked.subByte_ok (ofNat_le (Nat.le_of_lt_succ hlt)),
        advance_of_lt hrun hlt, hrun]
      rfl
    · have hrest := Nat.mod_lt ((t.cycles + n.toNat) / t.threshold - (t.counter.toNat + 1))
        (Nat.succ_pos t.reload.toNat)
      rw [if_neg (Nat.not_lt.mpr hge), Checked.sub_ok hge, Checked.ok_bind,
        Checked.mod_ok (Nat.succ_pos _), Checked.ok_bind,
        Checked.subByte_ok (ofNat_le (Nat.le_of_lt_succ hrest)), advance_of_le hrun hge, hrun]
      rfl

end Bounded

/-- Without a divider time would not pass. -/
example : { powerOn 1 with threshold := 0, running := true }.checkedAdvance 1 =
    .error .division := rfl

end Timer

/-! ### The interrupt controller -/

namespace Interrupt.Lines

/-- An interrupt controller in its bounds. -/
structure Bounded (l : Lines) : Prop where
  status : l.status.toNat ≤ linesMask.toNat
  mask : l.mask.toNat ≤ linesMask.toNat

variable {l : Lines}

theorem bounded_powerOn : powerOn.Bounded := ⟨by decide, by decide⟩

namespace Bounded

theorem raise (h : l.Bounded) (s : Source) : (l.raise s).Bounded := by
  refine { h with status := ?_ }
  have hbit : s.bit.toNat < Nat.pow 2 3 := by cases s <;> decide
  have hstatus : l.status.toNat < Nat.pow 2 3 := Nat.lt_succ_of_le h.status
  show (l.status ||| s.bit).toNat ≤ linesMask.toNat
  rw [UInt8.toNat_or]
  exact Nat.le_of_lt_succ (Nat.or_lt_two_pow hstatus hbit)

theorem clear (h : l.Bounded) (s : Source) : (l.clear s).Bounded := by
  refine { h with status := ?_ }
  show (l.status &&& ~~~s.bit).toNat ≤ linesMask.toNat
  rw [UInt8.toNat_and]
  exact Nat.le_trans Nat.and_le_left h.status

theorem setMask (h : l.Bounded) (value : Byte) : (l.setMask value).Bounded := by
  refine { h with mask := ?_ }
  show (value &&& linesMask).toNat ≤ linesMask.toNat
  rw [UInt8.toNat_and]
  exact Nat.and_le_right

/-- **Every operation keeps the interrupt controller in its bounds.** -/
theorem step (h : l.Bounded) (op : Op) : (l.step op).Bounded := by
  cases op with
  | raise s => exact h.raise s
  | clear s => exact h.clear s
  | setLine s level =>
    cases level with
    | false => exact h.clear s
    | true => exact h.raise s
  | setMask value => exact h.setMask value
  | reset => exact bounded_powerOn

end Bounded

end Interrupt.Lines

/-! ### The joypads -/

namespace Joypad

/-- A joypad connector in its bounds. -/
structure Bounded (j : Joypad) : Prop where
  active : j.active < tapCount

/-- Drive the select and clear lines. -/
def checkedWrite (limit : Nat) (j : Joypad) (value : Byte) : Checked Joypad := do
  let next ← if selects value && !j.select then do
      let next ← Checked.add limit j.active 1
      pure (next % tapCount)
    else pure j.active
  return { j with active := if clears value then 0 else next, select := selects value }

/-- Read a nibble of the active pad. -/
def checkedRead (j : Joypad) : Checked Byte := do
  let released := ~~~(← Checked.get j.pads j.active)
  let nibble := (if j.select then released >>> 4 else released) &&& 0x0F
  return nibble ||| 0xB0 ||| (if j.territory = .japan then 0x40 else 0)

variable {j : Joypad} {limit : Nat}

theorem bounded_powerOn (territory : Territory) : (powerOn territory).Bounded :=
  ⟨(by decide : 0 < tapCount)⟩

namespace Bounded

/-- **Every operation keeps the joypads in their bounds.** -/
theorem step (h : j.Bounded) (op : Op) : (j.step op).Bounded := by
  cases op with
  | write value =>
    refine ⟨?_⟩
    show (if clears value then 0
      else if selects value && !j.select then (j.active + 1) % tapCount else j.active) < tapCount
    split
    · decide
    · split
      · exact Nat.mod_lt _ (by decide)
      · exact h.active
  | setPad n pressed => exact ⟨h.active⟩
  | reset => exact ⟨(by decide : 0 < tapCount)⟩

theorem checkedWrite_eq (hlimit : vramSize < limit) (h : j.Bounded) (value : Byte) :
    j.checkedWrite limit value = .ok (j.write value) := by
  have hsize : tapCount < vramSize := by decide
  have hactive := h.active
  have hnext : j.active + 1 < limit := by omega
  simp only [checkedWrite, Checked.add_ok hnext, Checked.ok_bind, Checked.pure_eq_ok,
    Joypad.write]
  split <;> rfl

theorem checkedRead_eq (h : j.Bounded) : j.checkedRead = .ok j.read := by
  have hactive : j.active < padCount := Nat.lt_trans h.active (by decide)
  have hpad : j.pad j.active = j.pads.get ⟨j.active, hactive⟩ := by
    rw [pad, Vector.getElem?_eq_getElem hactive]
    rfl
  rw [checkedRead, Checked.get_ok hactive, ← hpad]
  rfl

end Bounded

end Joypad

end PcEngine
