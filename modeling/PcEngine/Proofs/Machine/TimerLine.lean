/-
PcEngine/Proofs/Machine/TimerLine.lean

The timer and its request, from a start on.

After a start, the timer and the request line that it raises depend on one number
only: the cycles that have passed since then.  Every operation either lets cycles
pass, or acts on the timer or its request (`DisturbsTimer`), or leaves both alone
(`step_keepsTimer`).  So as long as nothing disturbs the timer, a machine `S`
cycles after the start holds the timer `Timer.counted r T S`, and the request is
up as soon as the counter has counted down from zero once (`Counts`).  Each
operation adds its own cycles to `S` (`Counts.step`), so a run adds their sum
(`Counts.run`), whatever its parts are and whatever is done between them.

The reload value is that of the last write to the reload register, which is read
off the operations before the start (`reloadAfter`).

Main result: `timer_run`, for every run from power-on that leaves the timer stopped
and its request down.
-/
import PcEngine.Proofs.Machine.Ports
import PcEngine.Proofs.Timer

namespace PcEngine.Machine

/-! ### Operations and the timer -/

/-- Whether an operation acts on the timer or its request, other than by letting
cycles pass: it writes to a register of the timer, acknowledges the request, acts
on the interrupt controller past the bus, or resets. -/
def DisturbsTimer (m : Machine) : Op → Prop
  | .write addr _ => m.slots.writePage addr = .hardware ∧
      (Device.ofAddress addr = some .timer ∨ IsPort .interrupts 3 addr)
  | .interrupts _ | .reset => True
  | _ => False

/-- Whether none of the operations of a run acts on the timer or its request. -/
def Undisturbed : Machine → List Op → Prop
  | _, [] => True
  | m, op :: ops => ¬m.DisturbsTimer op ∧ (m.step op).2.Undisturbed ops

/-- The cycles that an operation lets pass. -/
def Op.cycles : Op → Nat
  | .tick n => n.toNat
  | _ => 0

/-- The cycles that operations let pass, all together. -/
def totalCycles : List Op → Nat
  | [] => 0
  | op :: ops => op.cycles + totalCycles ops

variable {m m' start : Machine} {t : Target} {op : Op} {addr : Word} {value : Byte}

/-- `m'` has the timer and the request of `m`. -/
structure KeepsTimer (m m' : Machine) : Prop where
  timer : m'.timer = m.timer
  request : m'.interrupts.isRaised .timer = m.interrupts.isRaised .timer

theorem Reads.keepsTimer (h : m.Reads t m') : m.KeepsTimer m' := by
  cases h with
  | quiet | data | colour => exact ⟨rfl, rfl⟩
  | status => exact ⟨rfl, m.interrupts.isRaised_clear .video .timer⟩

theorem raiseVideoIf_keepsTimer (h : m.KeepsTimer m') (queued : Bool) :
    m.KeepsTimer (m'.raiseVideoIf queued) := by
  cases queued with
  | false => exact h
  | true => exact ⟨h.timer, (m'.interrupts.isRaised_raise .video .timer).trans h.request⟩

theorem Writes.keepsTimer (h : m.Writes value t m') (htimer : ∀ n, t ≠ .timer n)
    (hline : t ≠ .interrupts 3) : m.KeepsTimer m' := by
  cases h with
  | timer => exact absurd rfl (htimer _)
  | acknowledge => exact absurd rfl hline
  | high =>
    refine ⟨rfl, ?_⟩
    -- the video controller may raise its own line
    dsimp only
    split
    · exact m.interrupts.isRaised_raise .video .timer
    · rfl
  | idle | video | palette | sound | joypad | mask => exact ⟨rfl, rfl⟩

theorem read_keepsTimer (m : Machine) (addr : Word) : m.KeepsTimer (m.read addr).2 := by
  rcases hpage : m.slots.readPage addr with ⟨region, base, span⟩ | -
  · simp only [read, hpage]
    exact ⟨rfl, rfl⟩
  · have hreads := m.readTarget_reads (.ofOffset (addr.toNat % bankSize))
    simp only [read, hpage]
    exact ⟨hreads.keepsTimer.timer, hreads.keepsTimer.request⟩

theorem write_keepsTimer (h : ¬m.DisturbsTimer (.write addr value)) :
    m.KeepsTimer (m.write addr value) := by
  rcases hpage : m.slots.writePage addr with ⟨region, base, span⟩ | -
  · simp only [write, hpage]
    split <;> constructor <;> simp only [selectRomPage]
  · have hwrites := writeTarget_writes { m with latch := value } value
      (.ofOffset (addr.toNat % bankSize))
    have hkeeps := hwrites.keepsTimer (fun n ht => ?_) fun ht => ?_
    · simp only [write, hpage, writeHardware]
      exact ⟨hkeeps.timer, hkeeps.request⟩
    · exact h ⟨hpage, .inl (ofAddress_of_ofOffset (d := .timer) ht)⟩
    · exact h ⟨hpage, .inr ((ofOffset_eq_target_iff (by decide)).mp ht)⟩

theorem raiseEvent_keepsTimer (m : Machine) (e : Video.Event) :
    m.KeepsTimer (m.raiseEvent e).2 := by
  refine raiseVideoIf_keepsTimer ?_ _
  exact ⟨rfl, rfl⟩

theorem serviceSprites_keepsTimer (m : Machine) : m.KeepsTimer m.serviceSprites.2 := by
  refine raiseVideoIf_keepsTimer ?_ _
  exact ⟨rfl, rfl⟩

theorem popEvent_keepsTimer (m : Machine) : m.KeepsTimer m.popEvent.2 := by
  unfold popEvent
  dsimp only
  split
  · exact ⟨rfl, m.interrupts.isRaised_clear .video .timer⟩
  · exact ⟨rfl, rfl⟩

/-- **Nothing but time reaches the timer**, unless an operation acts on it. -/
theorem step_keepsTimer (h : ¬m.DisturbsTimer op) (htick : ∀ n, op ≠ .tick n) :
    m.KeepsTimer (m.step op).2 := by
  cases op with
  | read addr => exact m.read_keepsTimer addr
  | write addr value => exact write_keepsTimer h
  | tick cycles => exact absurd rfl (htick cycles)
  | reset => exact absurd trivial h
  | interrupts op => exact absurd trivial h
  | raiseEvent e => exact m.raiseEvent_keepsTimer e
  | serviceSprites => exact m.serviceSprites_keepsTimer
  | popEvent => exact m.popEvent_keepsTimer
  | readWord addr | writeWord addr value | selectBank slot bank | nextSample channel
  | clockSamples channel clocks | setPad n pressed | restoreBackup data | video op =>
    exact ⟨rfl, rfl⟩

/-! ### The reload value -/

/-- The reload value after an operation, if `r` was it before: a write to the reload
register sets it to the low seven bits of the byte, and a reset to zero. -/
def reloadBy (m : Machine) (r : Byte) : Op → Byte
  | .write addr value =>
    if m.slots.writePage addr = .hardware ∧ IsPort .timer 0 addr then value % 128 else r
  | .reset => 0
  | _ => r

/-- The reload value after operations carried out one after the other. -/
def reloadAfter (m : Machine) (r : Byte) : List Op → Byte
  | [] => r
  | op :: ops => (m.step op).2.reloadAfter (m.reloadBy r op) ops

/-- The two registers of the timer. -/
theorem isPort_timer (h : Device.ofAddress addr = some .timer) :
    IsPort .timer 0 addr ∨ IsPort .timer 1 addr := by
  rcases Nat.mod_two_eq_zero_or_one addr.toNat with e | e
  · exact .inl ⟨h, e⟩
  · exact .inr ⟨h, e⟩

theorem timer_write_reload (hpage : m.slots.writePage addr = .hardware)
    (hport : IsPort .timer 0 addr) (value : Byte) :
    (m.write addr value).timer = m.timer.writeReload value := by
  rw [write_of_hardware hpage, (ofOffset_eq_target_iff (by decide)).mpr hport]
  rfl

theorem write_control (hpage : m.slots.writePage addr = .hardware)
    (hport : IsPort .timer 1 addr) (value : Byte) :
    m.write addr value = { m with latch := value, timer := m.timer.writeControl value } := by
  rw [write_of_hardware hpage, (ofOffset_eq_target_iff (by decide)).mpr hport]
  rfl

theorem write_acknowledge (hpage : m.slots.writePage addr = .hardware)
    (hport : IsPort .interrupts 3 addr) (value : Byte) :
    m.write addr value =
      { m with latch := value, interrupts := m.interrupts.clear .timer } := by
  rw [write_of_hardware hpage, (ofOffset_eq_target_iff (by decide)).mpr hport]
  rfl

theorem reload_writeControl (t : Timer) (value : Byte) :
    (t.writeControl value).reload = t.reload := by
  unfold Timer.writeControl
  split <;> rfl

theorem reload_advance (t : Timer) (n : Nat) : (t.advance n).2.reload = t.reload := by
  unfold Timer.advance
  split
  · rfl
  · dsimp only
    split <;> rfl

theorem timer_tick (m : Machine) (n : Nat) : (m.tick n).timer = (m.timer.advance n).2 := by
  unfold tick
  dsimp only
  split <;> rfl

theorem reload_write (m : Machine) (addr : Word) (value : Byte) :
    (m.write addr value).timer.reload = m.reloadBy m.timer.reload (.write addr value) := by
  by_cases hreload : m.slots.writePage addr = .hardware ∧ IsPort .timer 0 addr
  · rw [timer_write_reload hreload.1 hreload.2, reloadBy, if_pos hreload]
    rfl
  · rw [reloadBy, if_neg hreload]
    by_cases h : m.DisturbsTimer (.write addr value)
    · -- the other register of the timer, or the acknowledgement
      obtain ⟨hpage, htimer | hline⟩ := h
      · have hcontrol := (isPort_timer htimer).resolve_left fun hport => hreload ⟨hpage, hport⟩
        rw [write_control hpage hcontrol]
        exact reload_writeControl m.timer value
      · rw [write_acknowledge hpage hline]
    · rw [(write_keepsTimer h).timer]

theorem reload_step (m : Machine) (op : Op) :
    (m.step op).2.timer.reload = m.reloadBy m.timer.reload op := by
  cases op with
  | write addr value => exact m.reload_write addr value
  | tick cycles =>
    show (m.tick cycles.toNat).timer.reload = m.timer.reload
    rw [timer_tick, reload_advance]
  | reset => rfl
  | interrupts op => rfl
  | read addr => exact congrArg Timer.reload (m.read_keepsTimer addr).timer
  | popEvent => exact congrArg Timer.reload m.popEvent_keepsTimer.timer
  | raiseEvent e => exact congrArg Timer.reload (m.raiseEvent_keepsTimer e).timer
  | serviceSprites => exact congrArg Timer.reload m.serviceSprites_keepsTimer.timer
  | readWord addr | writeWord addr value | selectBank slot bank | nextSample channel
  | clockSamples channel clocks | setPad n pressed | restoreBackup data | video op => rfl

/-- The reload value of a machine is the one that its operations tell. -/
theorem reload_run (m : Machine) (ops : List Op) :
    (m.run ops).timer.reload = m.reloadAfter m.timer.reload ops := by
  induction ops generalizing m with
  | nil => rfl
  | cons op ops ih => rw [run_cons, ih, reload_step, reloadAfter]

/-! ### Counting cycles -/

/-- A machine `S` cycles after a start of its timer: the timer has counted them, and
the request is up once the counter has counted down from zero. -/
structure Counts (r : Byte) (T S : Nat) (m : Machine) : Prop where
  timer : m.timer = .counted r T S
  request : m.interrupts.isRaised .timer = true ↔ r.toNat + 1 ≤ S / T

namespace Counts

variable {r : Byte} {T S : Nat}

theorem keeps (h : Counts r T S m) (hkeeps : m.KeepsTimer m') : Counts r T S m' where
  timer := hkeeps.timer.trans h.timer
  request := hkeeps.request ▸ h.request

theorem tick (hT : 0 < T) (h : Counts r T S m) (n : Nat) : Counts r T (S + n) (m.tick n) := by
  have hadvance := Timer.advance_counted (r := r) hT S n
  have hline : (m.tick n).interrupts.isRaised .timer =
      (decide (S / T / (r.toNat + 1) < (S + n) / T / (r.toNat + 1)) ||
        m.interrupts.isRaised .timer) := by
    unfold Machine.tick
    rw [h.timer, hadvance]
    dsimp only
    split <;> simp [*]
  refine ⟨?_, ?_⟩
  · rw [timer_tick, h.timer, hadvance]
  · -- once the counter has been at zero it has been there for good
    have hmono : S / T / (r.toNat + 1) ≤ (S + n) / T / (r.toNat + 1) :=
      Nat.div_le_div_right (Nat.div_le_div_right (Nat.le_add_right S n))
    have honce : ∀ k, r.toNat + 1 ≤ k ↔ 0 < k / (r.toNat + 1) := fun k =>
      (Nat.div_pos_iff.trans (and_iff_right (Nat.succ_pos _))).symm
    rw [hline, Bool.or_eq_true, decide_eq_true_iff, h.request, honce, honce]
    generalize S / T / (r.toNat + 1) = a at *
    generalize (S + n) / T / (r.toNat + 1) = b at *
    omega

/-- Every operation adds its cycles. -/
theorem step (hT : 0 < T) (h : Counts r T S m) (hop : ¬m.DisturbsTimer op) :
    Counts r T (S + op.cycles) (m.step op).2 := by
  cases op with
  | tick n => exact h.tick hT n.toNat
  | _ => exact h.keeps (step_keepsTimer hop (by simp))

/-- A run adds all its cycles. -/
theorem run (hT : 0 < T) (h : Counts r T S m) {ops : List Op} (hops : m.Undisturbed ops) :
    Counts r T (S + totalCycles ops) (m.run ops) := by
  induction ops generalizing m S with
  | nil => exact h
  | cons op ops ih =>
    have htail := ih (h.step hT hops.1) hops.2
    rw [Nat.add_assoc] at htail
    exact htail

end Counts

/-- A start of a stopped timer with its request down starts the count. -/
theorem counts_start (hstopped : m.timer.running = false)
    (hlow : m.interrupts.isRaised .timer = false) (hpage : m.slots.writePage addr = .hardware)
    (hport : IsPort .timer 1 addr) (hstarts : Timer.starts value = true) :
    Counts m.timer.reload m.timer.threshold 0 (m.write addr value) := by
  rw [write_control hpage hport]
  refine ⟨Timer.writeControl_of_stopped hstopped hstarts, ?_⟩
  rw [Nat.zero_div]
  simp [hlow]

/-! ### After any start -/

/-- What the timer of a machine whose timer has just been started tells, for a
reload value `r` and a threshold `T`.

* `counter` — where the counter stands after operations that leave the timer alone
  is told by their cycles;
* `request` — and so is whether the request is up;
* `timer` — so the timer and its request do not depend on how the cycles are split,
  nor on what is done between them. -/
structure TellsCycles (r T : Nat) (m : Machine) : Prop where
  counter : ∀ {ops}, m.Undisturbed ops →
    (m.run ops).timer.counter.toNat = r - totalCycles ops / T % (r + 1)
  request : ∀ {ops}, m.Undisturbed ops →
    ((m.run ops).interrupts.isRaised .timer = true ↔ r + 1 ≤ totalCycles ops / T)
  timer : ∀ {ops ops'}, m.Undisturbed ops → m.Undisturbed ops' →
    totalCycles ops = totalCycles ops' →
    (m.run ops).timer = (m.run ops').timer ∧
      (m.run ops).interrupts.isRaised .timer = (m.run ops').interrupts.isRaised .timer

theorem Counts.tellsCycles {r : Byte} {T : Nat} (hT : 0 < T) (h : Counts r T 0 m) :
    m.TellsCycles r.toNat T := by
  have hrun : ∀ {ops}, m.Undisturbed ops → Counts r T (totalCycles ops) (m.run ops) := by
    intro ops hops
    have hcounts := h.run hT hops
    rwa [Nat.zero_add] at hcounts
  refine ⟨?_, fun hops => (hrun hops).request, ?_⟩
  · intro ops hops
    rw [(hrun hops).timer]
    exact Timer.toNat_counter_counted _
  · intro ops ops' hops hops' hcycles
    refine ⟨?_, ?_⟩
    · rw [(hrun hops).timer, (hrun hops').timer, hcycles]
    · rw [Bool.eq_iff_iff, (hrun hops).request, (hrun hops').request, hcycles]

variable {rom : Array Byte} {card : Card} {settings : Settings}

/-- **A started timer counts cycles**, however they are split and whatever is done
between them. -/
theorem timer_run (h : powerOn rom card settings = .ok start) {before : List Op}
    (hstopped : (start.run before).timer.running = false)
    (hlow : (start.run before).interrupts.isRaised .timer = false)
    (hpage : (start.run before).slots.writePage addr = .hardware)
    (hport : IsPort .timer 1 addr) (hstarts : Timer.starts value = true) :
    ((start.run before).write addr value).TellsCycles
      (start.reloadAfter 0 before).toNat (max settings.threshold.toNat 1) := by
  have hm := carries_of_powerOn h before
  have hcounts := counts_start hstopped hlow hpage hport hstarts
  have hreload : start.timer.reload = 0 := by
    obtain ⟨-, rfl⟩ := powerOn_eq_ok_iff.mp h
    rfl
  rw [hm.threshold, reload_run, hreload] at hcounts
  exact hcounts.tellsCycles (by omega)

/-- From 2 down at the standard threshold; the highest bit of the byte is
dropped. -/
theorem timer_run_fromTwo :
    let start := boot largeImage largeCard .standard
    let before := [.write 0x0C00 0x82]
    powerOn largeImage largeCard .standard = .ok start ∧
      (start.run before).timer.running = false ∧
      (start.run before).interrupts.isRaised .timer = false ∧
      (start.run before).slots.writePage 0x0C01 = .hardware ∧ IsPort .timer 1 0x0C01 ∧
      Timer.starts 0x01 = true ∧
      ((start.run before).write 0x0C01 0x01).TellsCycles 2 1024 := by
  intro start before
  have hpage : start.slots.writePage 0x0C00 = .hardware := by
    have hstart := carries_of_powerOn powerOn_largeCard []
    exact (hstart.hardware_iff _).mpr ((hstart.readPage_eq_hardware_iff _).mpr rfl)
  have hreload : IsPort .timer 0 0x0C00 := by decide
  have hafter : start.run before =
      { start with latch := 0x82, timer := start.timer.writeReload 0x82 } := by
    show start.write 0x0C00 0x82 = _
    rw [write_of_hardware hpage, (ofOffset_eq_target_iff (by decide)).mpr hreload]
    rfl
  have hpage' : (start.run before).slots.writePage 0x0C01 = .hardware := by
    have hbefore := carries_of_powerOn powerOn_largeCard before
    refine (hbefore.hardware_iff _).mpr ((hbefore.readPage_eq_hardware_iff _).mpr ?_)
    rw [hafter]
    rfl
  have hstopped : (start.run before).timer.running = false := by
    rw [hafter]
    rfl
  have hlow : (start.run before).interrupts.isRaised .timer = false := by
    rw [hafter]
    exact Interrupt.Lines.isRaised_powerOn .timer
  have hport : IsPort .timer 1 0x0C01 := by decide
  have hstarts : Timer.starts 0x01 = true := by decide
  have htold : start.reloadAfter 0 before = 2 := if_pos ⟨hpage, hreload⟩
  have htells := timer_run powerOn_largeCard hstopped hlow hpage' hport hstarts
  rw [htold] at htells
  exact ⟨powerOn_largeCard, hstopped, hlow, hpage', hport, hstarts, htells⟩

end PcEngine.Machine
