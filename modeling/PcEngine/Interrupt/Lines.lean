/-
PcEngine/Interrupt/Lines.lean

The interrupt controller: three request lines and a mask.

A device raises its line and something else lowers it; the mask says which
raised lines the processor does not see.  Status and mask are bytes of which
only the low three bits are ever set, one bit per line.
-/
import PcEngine.Notice

namespace PcEngine.Interrupt

/-- The bits that stand for lines. -/
def linesMask : Byte := 0x07

/-- The bit of a line in status and mask. -/
def Source.bit : Source → Byte
  | .external => 0x01
  | .video => 0x02
  | .timer => 0x04

/-- The interrupt controller.

* `status` — the raised lines;
* `mask` — the lines that are kept from the processor. -/
structure Lines where
  status : Byte
  mask : Byte

namespace Lines

/-- No line raised, no line masked. -/
def powerOn : Lines := ⟨0, 0⟩

/-! ### Changing lines -/

/-- Raise a line. -/
def raise (l : Lines) (s : Source) : Lines := { l with status := l.status ||| s.bit }

/-- Lower a line. -/
def clear (l : Lines) (s : Source) : Lines := { l with status := l.status &&& ~~~s.bit }

/-- Raise or lower a line. -/
def setLine (l : Lines) (s : Source) (level : Bool) : Lines :=
  if level then l.raise s else l.clear s

/-- Replace the mask; only the bits of lines are kept. -/
def setMask (l : Lines) (value : Byte) : Lines := { l with mask := value &&& linesMask }

/-! ### Looking at lines -/

/-- Whether a line is raised, masked or not. -/
def isRaised (l : Lines) (s : Source) : Bool := l.status &&& s.bit != 0

/-- The raised lines that are not masked. -/
def pending (l : Lines) : Byte := l.status &&& ~~~l.mask

/-- Whether the processor sees a line raised. -/
def isPending (l : Lines) (s : Source) : Bool := l.pending &&& s.bit != 0

/-- Raising a line is reported if the line was low. -/
def raiseNotices (l : Lines) (s : Source) : List Notice :=
  if l.isRaised s then [] else [.interruptRaised s]

end Lines

/-! ### Lines after a change -/

theorem Source.bit_ne_zero (s : Source) : s.bit ≠ 0 := by
  cases s <;> decide

/-- Different lines have different bits. -/
theorem Source.bit_and_bit (s s' : Source) : s.bit &&& s'.bit = if s = s' then s.bit else 0 := by
  cases s <;> cases s' <;> rfl

theorem Source.not_bit_and_bit (s s' : Source) :
    ~~~s.bit &&& s'.bit = if s = s' then 0 else s'.bit := by
  cases s <;> cases s' <;> rfl

theorem or_and_bit (status : Byte) (s s' : Source) :
    (status ||| s.bit) &&& s'.bit = (status &&& s'.bit) ||| (s.bit &&& s'.bit) := by
  apply UInt8.toNat_inj.mp
  simp only [UInt8.toNat_and, UInt8.toNat_or, Nat.and_or_distrib_right]

namespace Lines

@[simp] theorem isRaised_powerOn (s : Source) : powerOn.isRaised s = false := by
  cases s <;> rfl

/-- Raising a line raises that line and keeps the others. -/
@[simp] theorem isRaised_raise (l : Lines) (s s' : Source) :
    (l.raise s).isRaised s' = (decide (s = s') || l.isRaised s') := by
  simp only [isRaised, raise, or_and_bit, Source.bit_and_bit]
  by_cases h : s = s'
  · simp [h, Source.bit_ne_zero]
  · simp [h]

/-- Lowering a line lowers that line and keeps the others. -/
@[simp] theorem isRaised_clear (l : Lines) (s s' : Source) :
    (l.clear s).isRaised s' = (decide (s ≠ s') && l.isRaised s') := by
  simp only [isRaised, clear, UInt8.and_assoc, Source.not_bit_and_bit]
  by_cases h : s = s' <;> simp [h]

@[simp] theorem isRaised_setMask (l : Lines) (value : Byte) (s : Source) :
    (l.setMask value).isRaised s = l.isRaised s := rfl

end Lines

/-! ### Direct access -/

/-- What the host may do to the controller. -/
inductive Op where
  | raise (s : Source)
  | clear (s : Source)
  | setLine (s : Source) (level : Bool)
  | setMask (value : Byte)
  | reset

namespace Lines

/-- Carry out an operation. -/
def step (l : Lines) : Op → Lines
  | .raise s => l.raise s
  | .clear s => l.clear s
  | .setLine s level => l.setLine s level
  | .setMask value => l.setMask value
  | .reset => powerOn

/-- Carry out operations one after the other. -/
def run (l : Lines) (ops : List Op) : Lines := ops.foldl step l

/-- What an operation reports. -/
def notices (l : Lines) : Op → List Notice
  | .raise s | .setLine s true => l.raiseNotices s
  | _ => []

end Lines

end PcEngine.Interrupt
