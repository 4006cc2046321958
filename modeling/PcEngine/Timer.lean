/-
PcEngine/Timer.lean

The programmable timer: a seven-bit counter that counts down.

The processor clock goes through a divider of `threshold` cycles; each time the
divider is full, the counter counts down, and counting down from zero puts
`reload` back and asks for an interrupt.

* `reload` — what the counter starts from;
* `counter` — where it is;
* `running` — whether it counts;
* `cycles` — the cycles in the divider;
* `threshold` — the cycles that fill the divider, at least one.

`Timer.advance` takes any number of cycles at once and needs no loop: the
counter fires first after `counter + 1` counts and then after every
`reload + 1`.  `Timer.cycle` is one processor cycle, written down the way the
hardware works, and `Timer.repeatCycle` repeats it.
-/
import PcEngine.Answer
import PcEngine.Notice

namespace PcEngine

/-- The threshold of a machine that is not told otherwise. -/
def defaultThreshold : UInt32 := 1024

/-- The programmable timer; the fields are described at the head of the
file. -/
structure Timer where
  reload : Byte
  counter : Byte
  running : Bool
  cycles : Nat
  threshold : Nat

namespace Timer

/-- A stopped timer. -/
def powerOn (threshold : Nat) : Timer := ⟨0, 0, false, 0, max threshold 1⟩

/-- Back to the power-on state; the threshold stays. -/
def reset (t : Timer) : Timer := powerOn t.threshold

/-- Set the value that the counter starts from, seven bits. -/
def writeReload (t : Timer) (value : Byte) : Timer := { t with reload := value % 128 }

/-- Whether a control value asks the timer to run. -/
def starts (value : Byte) : Bool := value % 2 == 1

/-- Start or stop by bit 0.  Starting a stopped timer loads the counter and
empties the divider; starting a running one does nothing. -/
def writeControl (t : Timer) (value : Byte) : Timer :=
  if starts value && !t.running then { t with counter := t.reload, cycles := 0, running := true }
  else { t with running := starts value }

/-- Starting a stopped timer is reported. -/
def controlNotices (t : Timer) (value : Byte) : List Notice :=
  if starts value && !t.running then [.timerStarted t.reload] else []

/-! ### Counting -/

/-- Let `n` cycles pass; says whether the counter counted down from zero at
least once. -/
def advance (t : Timer) (n : Nat) : Bool × Timer :=
  if !t.running then (false, t)
  else
    let counts := (t.cycles + n) / t.threshold
    let t := { t with cycles := (t.cycles + n) % t.threshold }
    let toFirst := t.counter.toNat + 1
    if counts < toFirst then (false, { t with counter := t.counter - UInt8.ofNat counts })
    else
      let rest := (counts - toFirst) % (t.reload.toNat + 1)
      (true, { t with counter := t.reload - UInt8.ofNat rest })

/-- Let one cycle pass. -/
def cycle (t : Timer) : Bool × Timer :=
  if !t.running then (false, t)
  else if t.cycles + 1 < t.threshold then (false, { t with cycles := t.cycles + 1 })
  else if t.counter = 0 then (true, { t with cycles := 0, counter := t.reload })
  else (false, { t with cycles := 0, counter := t.counter - 1 })

/-- Let `n` cycles pass one by one. -/
def repeatCycle (t : Timer) : Nat → Bool × Timer
  | 0 => (false, t)
  | n + 1 =>
    let (fired, t) := t.cycle
    let (firedLater, t) := t.repeatCycle n
    (fired || firedLater, t)

/-! ### Operations -/

/-- Something to do with a timer. -/
inductive Op where
  | writeReload (value : Byte)
  | writeControl (value : Byte)
  | advance (cycles : UInt32)
  | reset

/-- Carry out an operation. -/
def step (t : Timer) : Op → Answer × Timer
  | .writeReload value => (.done, t.writeReload value)
  | .writeControl value => (.done, t.writeControl value)
  | .advance cycles =>
    let (fired, t) := t.advance cycles.toNat
    (.flag fired, t)
  | .reset => (.done, t.reset)

/-- Carry out operations one after the other. -/
def run (t : Timer) (ops : List Op) : Timer := ops.foldl (fun t op => (t.step op).2) t

/-- What an operation reports. -/
def notices (t : Timer) : Op → List Notice
  | .writeControl value => t.controlNotices value
  | _ => []

end Timer

end PcEngine
