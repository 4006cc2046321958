/-
PcEngine/Proofs/Checked/Bounded.lean

The devices of a machine stay in their bounds.

Devices are changed through the hardware page, by time passing, by the renderer, the
sound mixer and the host, and past the bus.  Each of these is an operation of the
device, which has its own bounds and keeps them; so the machine is in its bounds if
all its devices are (`Machine.Bounded`), and every operation keeps it so
(`Bounded.step`, `Bounded.run`).  Memories and bank switching have no part in this.
-/
import PcEngine.Proofs.Checked.Devices
import PcEngine.Proofs.Checked.Palette
import PcEngine.Proofs.Checked.Sound
import PcEngine.Proofs.Checked.Video
import PcEngine.Proofs.Machine.Extent
import PcEngine.Proofs.Machine.Ports

namespace PcEngine.Machine

variable {m m' : Machine} {t : Target} {value : Byte}

/-- All devices are in their bounds. -/
structure Bounded (m : Machine) : Prop where
  video : m.video.Bounded
  palette : m.palette.Bounded
  sound : m.sound.Bounded
  timer : m.timer.Bounded
  interrupts : m.interrupts.Bounded
  joypad : m.joypad.Bounded

theorem bounded_boot (rom : Array Byte) (card : Card) (settings : Settings) :
    (boot rom card settings).Bounded where
  video := Video.Controller.bounded_powerOn
  palette := Video.Palette.bounded_powerOn
  sound := Sound.Generator.bounded_powerOn
  timer := Timer.bounded_powerOn settings.threshold.toNat_lt
  interrupts := Interrupt.Lines.bounded_powerOn
  joypad := Joypad.bounded_powerOn settings.territory

namespace Bounded

theorem raiseVideoIf (h : m.Bounded) (queued : Bool) : (m.raiseVideoIf queued).Bounded := by
  cases queued with
  | false => exact h
  | true => exact { h with interrupts := h.interrupts.raise .video }

theorem reads (h : m.Bounded) (hreads : m.Reads t m') : m'.Bounded := by
  cases hreads with
  | quiet => exact h
  | status =>
    exact { h with
      video := h.video.step .readStatus
      interrupts := h.interrupts.clear .video }
  | data => exact { h with video := h.video.setRegister _ _ }
  | colour => exact { h with palette := h.palette.advance }

theorem writes (h : m.Bounded) (hwrites : m.Writes value t m') : m'.Bounded := by
  cases hwrites with
  | idle => exact h
  | video _ op => exact { h with video := h.video.step op }
  | high =>
    refine { h with video := h.video.writeHigh value m.store.vram, interrupts := ?_ }
    dsimp only
    split
    · exact h.interrupts.raise .video
    · exact h.interrupts
  | palette op => exact { h with palette := h.palette.step op }
  | sound => exact { h with sound := h.sound.write _ value }
  | timer op => exact { h with timer := h.timer.step op }
  | joypad => exact { h with joypad := h.joypad.step (.write value) }
  | mask => exact { h with interrupts := h.interrupts.setMask value }
  | acknowledge => exact { h with interrupts := h.interrupts.clear .timer }

theorem read (h : m.Bounded) (addr : Word) : (m.read addr).2.Bounded := by
  rcases hpage : m.slots.readPage addr with ⟨region, base, span⟩ | -
  · rw [read_of_flat hpage]
    exact h
  · have hreads := h.reads (m.readTarget_reads (.ofOffset (addr.toNat % bankSize)))
    rw [read_of_hardware hpage rfl]
    exact { hreads with }

/-- Bank switching and memory have no bounds of this kind. -/
theorem selectRomPage (h : m.Bounded) (page : Nat) : (m.selectRomPage page).Bounded := by
  constructor <;> simp only [Machine.selectRomPage]
  exacts [h.video, h.palette, h.sound, h.timer, h.interrupts, h.joypad]

theorem setStore (h : m.Bounded) (store : Store) : Bounded { m with store := store } := { h with }

theorem write (h : m.Bounded) (addr : Word) (value : Byte) : (m.write addr value).Bounded := by
  rcases hpage : m.slots.writePage addr with ⟨region, base, span⟩ | -
  · simp only [Machine.write, hpage]
    split
    · exact (h.selectRomPage _).setStore _
    · exact h.setStore _
  · rw [write_of_hardware hpage]
    have hlatch : Bounded { m with latch := value } := { h with }
    exact hlatch.writes (writeTarget_writes _ value _)

theorem tick (h : m.Bounded) (cycles : Nat) : (m.tick cycles).Bounded := by
  unfold Machine.tick
  dsimp only
  split
  · exact { h with
      timer := h.timer.advance cycles
      interrupts := h.interrupts.raise .timer }
  · exact { h with timer := h.timer.advance cycles }

theorem reset (h : m.Bounded) : m.reset.Bounded where
  video := Video.Controller.bounded_powerOn
  palette := Video.Palette.bounded_powerOn
  sound := Sound.Generator.bounded_powerOn
  timer := Timer.bounded_powerOn h.timer.threshold.2
  interrupts := Interrupt.Lines.bounded_powerOn
  joypad := h.joypad.step .reset

theorem raiseEvent (h : m.Bounded) (e : Video.Event) : (m.raiseEvent e).2.Bounded := by
  refine Bounded.raiseVideoIf ?_ _
  exact { h with video := h.video.raise e }

theorem serviceSprites (h : m.Bounded) : m.serviceSprites.2.Bounded := by
  refine Bounded.raiseVideoIf ?_ _
  exact { h with video := h.video.serviceSprites m.store.vram }

theorem popEvent (h : m.Bounded) : m.popEvent.2.Bounded := by
  unfold Machine.popEvent
  dsimp only
  split
  · exact { h with video := h.video.popEvent, interrupts := h.interrupts.clear .video }
  · exact { h with video := h.video.popEvent }

/-- **Every operation keeps the machine in its bounds.** -/
theorem step (h : m.Bounded) (op : Op) : (m.step op).2.Bounded := by
  cases op with
  | read addr => exact h.read addr
  | write addr value => exact h.write addr value
  | tick cycles => exact h.tick cycles.toNat
  | reset => exact h.reset
  | raiseEvent e => exact h.raiseEvent e
  | serviceSprites => exact h.serviceSprites
  | popEvent => exact h.popEvent
  | nextSample channel => exact { h with sound := h.sound.nextSample channel }
  | clockSamples channel clocks => exact { h with sound := h.sound.clock channel clocks.toNat }
  | setPad n pressed => exact { h with joypad := h.joypad.step (.setPad n pressed) }
  | video op => exact { h with video := h.video.step op }
  | interrupts op => exact { h with interrupts := h.interrupts.step op }
  | readWord addr => exact h
  | writeWord addr value => exact h.setStore _
  | selectBank slot bank => exact { h with }
  | restoreBackup data => exact h.setStore _

theorem run (h : m.Bounded) (ops : List Op) : (m.run ops).Bounded := by
  induction ops generalizing m with
  | nil => exact h
  | cons op ops ih => exact ih (h.step op)

end Bounded

end PcEngine.Machine
