/-
PcEngine/Proofs/Joypad.lean

Scanning the pads.

What a joypad connector shows is told by what has been done to it:

* the select line is as the last write has left it, and low after a reset (`line`);
* the multitap has moved on once for each time that the line has gone up (`edges`) since
  the scan was taken back to the first pad, by a reset or by a write that clears;
* a pad is in the state that it has last been set to (`lastSet`).

A write can clear and raise the line at once.  Its edge is then lost, but the line is high
after it, so the multitap moves on only after the line has been low again.  This is why
`edges` starts from the line as it was left, and not from a low line.

The multitap scans five pads.  What the host sets for any other is never shown
(`ShowsAlike`).

Main result: `scans_run`, for every run.
-/
import Mathlib.Data.List.Forall2
import Mathlib.Data.List.Induction
import PcEngine.Proofs.Checked.Devices

namespace PcEngine.Joypad

variable {territory : Territory} {j j' : Joypad} {op op' : Op} {ops ops' : List Op}

/-! ### What has been done to a connector -/

/-- Operations that take the scan back to the first pad. -/
def Op.restarts : Op → Bool
  | .write value => clears value
  | .setPad .. => false
  | .reset => true

/-- The select line after an operation. -/
def Op.lineAfter (high : Bool) : Op → Bool
  | .write value => selects value
  | .setPad .. => high
  | .reset => false

/-- Whether the select line goes up with an operation. -/
def Op.raises (high : Bool) (op : Op) : Bool := !high && op.lineAfter high

/-- The select line after some operations. -/
def line (ops : List Op) : Bool := ops.foldl Op.lineAfter false

/-- How often the select line goes up. -/
def edges (high : Bool) : List Op → Nat
  | [] => 0
  | op :: ops => (op.raises high).toNat + edges (op.lineAfter high) ops

/-- The state that an operation sets a pad to. -/
def Op.set? (n : Nat) : Op → Option Byte
  | .setPad m pressed => if m = n then some pressed else none
  | _ => none

/-- The state that a pad has last been set to. -/
def lastSet (n : Nat) (ops : List Op) : Byte := (ops.filterMap (Op.set? n)).getLastD 0

/-- How a run falls in two where the scan was last taken back.

* `split` — into `before` and `after`;
* `start` — `before` ends with the operation that took it back, or is empty if there was
  none;
* `last` — there is no such operation in `after`. -/
structure SplitsAtRestart (ops before after : List Op) : Prop where
  split : ops = before ++ after
  start : before = [] ∨ ∃ earlier op, before = earlier ++ [op] ∧ op.restarts = true
  last : ∀ op ∈ after, op.restarts = false

theorem exists_splitsAtRestart (ops : List Op) :
    ∃ before after, SplitsAtRestart ops before after := by
  -- the induction is from the end, where the last restart is
  induction ops using List.reverseRecOn with
  | nil => exact ⟨[], [], rfl, .inl rfl, fun op hop => absurd hop List.not_mem_nil⟩
  | append_singleton ops op ih =>
    rcases hop : op.restarts with - | -
    · obtain ⟨before, after, rfl, hstart, hlast⟩ := ih
      refine ⟨before, after ++ [op], List.append_assoc .., hstart, fun o ho => ?_⟩
      rcases List.mem_append.mp ho with ho | ho
      · exact hlast o ho
      · rwa [List.mem_singleton.mp ho]
    · exact ⟨ops ++ [op], [], (List.append_nil _).symm, .inr ⟨ops, op, rfl, hop⟩,
        fun o ho => absurd ho List.not_mem_nil⟩

/-! ### One operation -/

theorem select_step (j : Joypad) (op : Op) : (j.step op).select = op.lineAfter j.select := by
  cases op <;> rfl

theorem territory_step (j : Joypad) (op : Op) : (j.step op).territory = j.territory := by
  cases op <;> rfl

theorem active_step_of_restarts (h : op.restarts = true) : (j.step op).active = 0 := by
  cases op with
  | write value => exact if_pos h
  | setPad => exact absurd h Bool.false_ne_true
  | reset => rfl

/-- Without a restart, the multitap moves on if the line goes up. -/
theorem active_step_of_not_restarts (hj : j.Bounded) (h : op.restarts = false) :
    (j.step op).active = (j.active + (op.raises j.select).toNat) % tapCount := by
  cases op with
  | write value =>
    have hkeep : (j.step (.write value)).active = if selects value && !j.select
        then (j.active + 1) % tapCount else j.active :=
      if_neg (ne_true_of_eq_false h)
    have hraises : Op.raises j.select (.write value) = (selects value && !j.select) :=
      Bool.and_comm ..
    rw [hkeep, hraises]
    split
    · next hup => rw [hup, Bool.toNat_true]
    · next hup =>
      rw [Bool.eq_false_iff.mpr hup, Bool.toNat_false, Nat.add_zero,
        Nat.mod_eq_of_lt hj.active]
  | setPad n pressed =>
    have hraises : Op.raises j.select (.setPad n pressed) = false := Bool.not_and_self _
    rw [hraises, Bool.toNat_false, Nat.add_zero, Nat.mod_eq_of_lt hj.active]
    rfl
  | reset => exact absurd h.symm Bool.false_ne_true

/-- No button is pressed at first. -/
theorem pad_powerOn {n : Nat} (hn : n < padCount) : (powerOn territory).pad n = 0 := by
  show (Vector.replicate padCount (0 : Byte))[n]?.getD 0 = 0
  rw [Vector.getElem?_replicate, if_pos hn]
  rfl

theorem pad_step {n : Nat} (hn : n < padCount) (j : Joypad) (op : Op) :
    (j.step op).pad n = (op.set? n).getD (j.pad n) := by
  cases op with
  | write | reset => rfl
  | setPad m pressed =>
    show (j.pads.setIfInBounds m pressed)[n]?.getD 0 = _
    rw [Op.set?]
    split
    · next heq =>
      rw [heq, Vector.getElem?_setIfInBounds_self_of_lt hn]
      rfl
    · next hne =>
      rw [Vector.getElem?_setIfInBounds_ne hne]
      rfl

/-! ### A run -/

theorem run_append (j : Joypad) (ops ops' : List Op) :
    j.run (ops ++ ops') = (j.run ops).run ops' :=
  List.foldl_append

theorem Bounded.run (h : j.Bounded) (ops : List Op) : (j.run ops).Bounded := by
  induction ops generalizing j with
  | nil => exact h
  | cons op ops ih => exact ih (h.step op)

theorem select_run (j : Joypad) (ops : List Op) :
    (j.run ops).select = ops.foldl Op.lineAfter j.select := by
  induction ops generalizing j with
  | nil => rfl
  | cons op ops ih =>
    show ((j.step op).run ops).select = _
    rw [ih, select_step, List.foldl_cons]

theorem territory_run (j : Joypad) (ops : List Op) : (j.run ops).territory = j.territory := by
  induction ops generalizing j with
  | nil => rfl
  | cons op ops ih => exact (ih _).trans (territory_step j op)

/-- Without a restart, the multitap moves on once for each edge. -/
theorem active_run_of_not_restarts (hj : j.Bounded) (h : ∀ op ∈ ops, op.restarts = false) :
    (j.run ops).active = (j.active + edges j.select ops) % tapCount := by
  induction ops generalizing j with
  | nil => exact (Nat.mod_eq_of_lt hj.active).symm
  | cons op ops ih =>
    obtain ⟨hop, hops⟩ := List.forall_mem_cons.mp h
    show ((j.step op).run ops).active = _
    rw [ih (hj.step op) hops, select_step, active_step_of_not_restarts hj hop, Nat.mod_add_mod,
      Nat.add_assoc, edges]

theorem pad_run {n : Nat} (hn : n < padCount) (j : Joypad) (ops : List Op) :
    (j.run ops).pad n = (ops.filterMap (Op.set? n)).getLastD (j.pad n) := by
  induction ops generalizing j with
  | nil => rfl
  | cons op ops ih =>
    show ((j.step op).run ops).pad n = _
    rw [ih, pad_step hn, List.filterMap_cons]
    rcases op.set? n with - | pressed
    · rfl
    · exact (List.getLastD_cons ..).symm

/-- The scan is at the first pad where it is taken back. -/
theorem SplitsAtRestart.active_before {before after : List Op}
    (h : SplitsAtRestart ops before after) : ((powerOn territory).run before).active = 0 := by
  rcases h.start with rfl | ⟨earlier, op, rfl, hop⟩
  · rfl
  · rw [run_append]
    exact active_step_of_restarts hop

/-! ### What is read -/

/-- The nibble that is read of a pad: zeros for its pressed buttons. -/
def released (pressed : Byte) (high : Bool) : Byte :=
  if high then 15 - pressed / 16 else 15 - pressed % 16

theorem toNat_nibble (value : Byte) : (value &&& 0x0F).toNat = value.toNat % 16 := by
  rw [UInt8.toNat_and]
  exact Nat.and_two_pow_sub_one_eq_mod value.toNat 4

theorem toNat_highNibble (value : Byte) : (value >>> 4 &&& 0x0F).toNat = value.toNat / 16 := by
  have hbound := value.toNat_lt
  rw [toNat_nibble, UInt8.toNat_shiftRight]
  show value.toNat >>> 4 % 16 = value.toNat / 16
  rw [Nat.shiftRight_eq_div_pow]
  omega

theorem nibble_not_eq (pressed : Byte) (high : Bool) :
    (if high then ~~~pressed >>> 4 else ~~~pressed) &&& 0x0F = released pressed high := by
  have hbound := pressed.toNat_lt
  -- to invert is to take away from 255, and so each nibble from 15
  have hnot : (~~~pressed).toNat = 255 - pressed.toNat := UInt8.toNat_not ..
  apply UInt8.toNat_inj.mp
  rw [released]
  cases high with
  | true =>
    have hle : pressed / 16 ≤ 15 := by
      rw [UInt8.le_iff_toNat_le, UInt8.toNat_div]
      show pressed.toNat / 16 ≤ 15
      omega
    rw [if_pos rfl, if_pos rfl, toNat_highNibble, hnot, UInt8.toNat_sub_of_le _ _ hle,
      UInt8.toNat_div]
    show (255 - pressed.toNat) / 16 = 15 - pressed.toNat / 16
    omega
  | false =>
    have hle : pressed % 16 ≤ 15 := by
      rw [UInt8.le_iff_toNat_le, UInt8.toNat_mod]
      show pressed.toNat % 16 ≤ 15
      omega
    rw [if_neg Bool.false_ne_true, if_neg Bool.false_ne_true, toNat_nibble, hnot,
      UInt8.toNat_sub_of_le _ _ hle, UInt8.toNat_mod]
    show (255 - pressed.toNat) % 16 = 15 - pressed.toNat % 16
    omega

theorem read_eq (j : Joypad) :
    j.read = released (j.pad j.active) j.select ||| 0xB0 |||
      (if j.territory = .japan then 0x40 else 0) := by
  rw [← nibble_not_eq]
  rfl

/-! ### Pads that are not scanned -/

/-- Two operations that differ at most in what they set for pads that are not scanned. -/
def Op.Alike (op op' : Op) : Prop :=
  op = op' ∨ ∃ n n' pressed pressed', tapCount ≤ n ∧ tapCount ≤ n' ∧
    op = .setPad n pressed ∧ op' = .setPad n' pressed'

/-- Two connectors that differ at most in pads that are not scanned. -/
structure ShowsAlike (j j' : Joypad) : Prop where
  active : j.active = j'.active
  select : j.select = j'.select
  territory : j.territory = j'.territory
  pads : ∀ n < tapCount, j.pad n = j'.pad n

namespace ShowsAlike

theorem read (h : ShowsAlike j j') (hj : j.Bounded) : j.read = j'.read := by
  rw [read_eq, read_eq, h.pads j.active hj.active, h.active, h.select, h.territory]

/-- The same operation does the same to both. -/
theorem step_self (h : ShowsAlike j j') (op : Op) : ShowsAlike (j.step op) (j'.step op) where
  active := by
    cases op with
    | write value =>
      show (if clears value then 0 else if selects value && !j.select then _ else j.active) =
        if clears value then 0 else if selects value && !j'.select then _ else j'.active
      rw [h.active, h.select]
    | setPad => exact h.active
    | reset => rfl
  select := by rw [select_step, select_step, h.select]
  territory := by rw [territory_step, territory_step, h.territory]
  pads n hn := by
    have hcount : n < padCount := Nat.lt_trans hn (by decide)
    rw [pad_step hcount, pad_step hcount, h.pads n hn]

/-- Setting a pad that is not scanned shows nowhere. -/
theorem setPad {n : Nat} (hn : tapCount ≤ n) (j : Joypad) (pressed : Byte) :
    ShowsAlike (j.setPad n pressed) j where
  active := rfl
  select := rfl
  territory := rfl
  pads m hm := by
    have hne : n ≠ m := Nat.ne_of_gt (Nat.lt_of_lt_of_le hm hn)
    show (j.pads.setIfInBounds n pressed)[m]?.getD 0 = _
    rw [Vector.getElem?_setIfInBounds_ne hne]
    rfl

theorem symm (h : ShowsAlike j j') : ShowsAlike j' j :=
  ⟨h.active.symm, h.select.symm, h.territory.symm, fun n hn => (h.pads n hn).symm⟩

theorem trans {j'' : Joypad} (h : ShowsAlike j j') (h' : ShowsAlike j' j'') : ShowsAlike j j'' :=
  ⟨h.active.trans h'.active, h.select.trans h'.select, h.territory.trans h'.territory,
    fun n hn => (h.pads n hn).trans (h'.pads n hn)⟩

theorem step (h : ShowsAlike j j') (hop : op.Alike op') :
    ShowsAlike (j.step op) (j'.step op') := by
  rcases hop with rfl | ⟨n, n', pressed, pressed', hn, hn', rfl, rfl⟩
  · exact h.step_self op
  · -- neither setting shows, so it does not matter that the pads may be different ones
    exact ((setPad hn j pressed).trans h).trans (setPad hn' j' pressed').symm

theorem run (h : ShowsAlike j j') (hops : List.Forall₂ Op.Alike ops ops') :
    ShowsAlike (j.run ops) (j'.run ops') := by
  induction hops generalizing j j' with
  | nil => exact h
  | cons hop _ ih => exact ih (h.step hop)

end ShowsAlike

/-! ### The whole scan -/

/-- What a connector shows after a run.

* `split` — there is a last operation that took the scan back, or none in the run;
* `active` — since then, the multitap has moved on once for each edge;
* `read` — the pad that it has come to is read as it was last set, the nibble that the
  select line says;
* `hidden` — runs that differ only in what they set for pads that are not scanned read the
  same all along. -/
structure Scans (territory : Territory) (ops : List Op) : Prop where
  split : ∃ before after, SplitsAtRestart ops before after
  active : ∀ before after, SplitsAtRestart ops before after →
    ((powerOn territory).run ops).active = edges (line before) after % tapCount
  read : ((powerOn territory).run ops).read =
    released (lastSet ((powerOn territory).run ops).active ops) (line ops) ||| 0xB0 |||
      (if territory = .japan then 0x40 else 0)
  hidden : ∀ ops', List.Forall₂ Op.Alike ops ops' → ∀ k,
    ((powerOn territory).run (ops.take k)).read = ((powerOn territory).run (ops'.take k)).read

/-- **The multitap is scanned by the edges of the select line**, and shows what the pads
that it scans have last been set to. -/
theorem scans_run (territory : Territory) (ops : List Op) : Scans territory ops := by
  have hbounded := bounded_powerOn territory
  refine ⟨exists_splitsAtRestart ops, fun before after h => ?_, ?_, fun ops' hops k => ?_⟩
  · -- the scan starts at the first pad behind `before`, with the line as `before` leaves it
    rw [h.split, run_append, active_run_of_not_restarts (hbounded.run before) h.last,
      h.active_before, select_run, Nat.zero_add]
    rfl
  · have hactive : ((powerOn territory).run ops).active < padCount :=
      Nat.lt_trans (hbounded.run ops).active (by decide)
    rw [read_eq, pad_run hactive, pad_powerOn hactive, select_run, territory_run]
    rfl
  · have hstart : ShowsAlike (powerOn territory) (powerOn territory) :=
      ⟨rfl, rfl, rfl, fun _ _ => rfl⟩
    exact (hstart.run (List.forall₂_take k hops)).read (hbounded.run _)

end PcEngine.Joypad
