/-
PcEngine/Proofs/Checked/Sound.lean

The sound generator stays in its bounds, and so never fails.

Each channel writes its waveform at an index of its own and keeps its samples in a
ring with a head and a count; the registers that its period and its waveform come
from are narrower than the numbers that hold them (`Channel.Bounded`).  The selected
channel is one of six, and noise is out of reach of the first four
(`Generator.Bounded`).

The phase of a channel is a remainder of a period that the processor may have changed
since.  A period is at most 4095 whatever it is, so this is what is known of the
phase; that it is below the present period is not.

On a generator in its bounds the checked operations do what the total ones do
(`checkedWrite_eq`, `checkedNextSample_eq`, `checkedClock_eq`).
-/
import PcEngine.Proofs.Checked.Basic
import PcEngine.Proofs.Sound.Stream
import PcEngine.Store.Vram

namespace PcEngine.Sound

variable {limit : Nat}

/-! ### Samples -/

namespace SampleBuffer

/-- The head is a cell of the ring, and there are no more samples than cells. -/
structure Bounded (b : SampleBuffer) : Prop where
  head : b.head < bufferSize
  count : b.count ≤ bufferSize

/-- Add a sample, unless the buffer is full. -/
def checkedPush (limit : Nat) (b : SampleBuffer) (sample : Byte) :
    Checked (Bool × SampleBuffer) := do
  if b.isFull then return (false, b)
  else
    let place ← Checked.add limit b.head b.count
    let cells ← Checked.set b.cells (place % bufferSize) sample
    return (true, { b with cells := cells, count := ← Checked.add limit b.count 1 })

/-- Take the next sample if one is waiting. -/
def checkedPop (limit : Nat) (b : SampleBuffer) : Checked (Byte × SampleBuffer) := do
  if b.isEmpty then return (b.last, b)
  else
    let sample ← Checked.get b.cells b.head
    let next ← Checked.add limit b.head 1
    let count ← Checked.sub b.count 1
    return (sample, { b with head := next % bufferSize, count := count, last := sample })

/-- Take `n` samples one after the other. -/
def checkedDiscard (limit : Nat) (b : SampleBuffer) : Nat → Checked SampleBuffer
  | 0 => return b
  | n + 1 => do
    let popped ← b.checkedPop limit
    popped.2.checkedDiscard limit n

variable {b : SampleBuffer}

theorem bounded_empty : empty.Bounded := ⟨by decide, by decide⟩

namespace Bounded

theorem push (h : b.Bounded) (sample : Byte) : (b.push sample).2.Bounded := by
  by_cases hfull : b.count = bufferSize
  · rw [push_of_full b hfull]
    exact h
  · have hroom : b.count < bufferSize := Nat.lt_of_le_of_ne h.count hfull
    rw [push_of_lt b hroom]
    exact ⟨h.head, hroom⟩

theorem pop (h : b.Bounded) : b.pop.2.Bounded where
  head := by
    unfold SampleBuffer.pop
    split
    · exact h.head
    · exact Nat.mod_lt _ (by decide)
  count := by
    rw [count_pop]
    exact Nat.le_trans (Nat.sub_le _ _) h.count

theorem discard (h : b.Bounded) (n : Nat) : (b.discard n).Bounded := by
  induction n generalizing b with
  | zero => exact h
  | succ n ih => exact ih h.pop

theorem checkedPush_eq (hlimit : vramSize < limit) (h : b.Bounded) (sample : Byte) :
    b.checkedPush limit sample = .ok (b.push sample) := by
  have hsize : 2 * bufferSize < vramSize := by decide
  have hhead := h.head
  have hcount := h.count
  have hplace : b.head + b.count < limit := by omega
  have hsum : b.count + 1 < limit := by omega
  have hcell : (b.head + b.count) % bufferSize < bufferSize := Nat.mod_lt _ (by decide)
  simp only [checkedPush, SampleBuffer.push, Checked.add_ok hplace, Checked.add_ok hsum,
    Checked.set_ok_setIfInBounds hcell, Checked.ok_bind, Checked.pure_eq_ok]
  split <;> rfl

theorem checkedPop_eq (hlimit : vramSize < limit) (h : b.Bounded) :
    b.checkedPop limit = .ok b.pop := by
  rcases hempty : b.isEmpty with - | -
  · obtain ⟨n, hn⟩ := b.exists_count_eq_succ hempty
    have hsize : bufferSize < vramSize := by decide
    have hhead := h.head
    have hnext : b.head + 1 < limit := by omega
    have hone : 1 ≤ b.count := by omega
    have hget : b.get 0 = b.cells.get ⟨b.head, h.head⟩ := by
      rw [get, Nat.add_zero, Nat.mod_eq_of_lt h.head, Vector.getElem?_eq_getElem h.head]
      rfl
    simp only [checkedPop, SampleBuffer.pop, hempty, Bool.false_eq_true, if_false,
      Checked.get_ok h.head, Checked.add_ok hnext, Checked.sub_ok hone, Checked.ok_bind,
      Checked.pure_eq_ok, hget]
  · rw [checkedPop, pop_of_isEmpty b hempty, if_pos hempty]
    rfl

theorem checkedDiscard_eq (hlimit : vramSize < limit) (h : b.Bounded) (n : Nat) :
    b.checkedDiscard limit n = .ok (b.discard n) := by
  induction n generalizing b with
  | zero => rfl
  | succ n ih =>
    rw [checkedDiscard, h.checkedPop_eq hlimit, Checked.ok_bind, ih h.pop, SampleBuffer.discard]

end Bounded

end SampleBuffer

/-! ### Channels -/

namespace Channel

/-- Frequencies have twelve bits. -/
def frequencyLimit : Nat := 4096

/-- Steps of a waveform have five bits. -/
def waveLimit : Nat := 32

/-- A channel in its bounds. -/
structure Bounded (c : Channel) : Prop where
  waveIndex : c.waveIndex < waveSize
  wave : ∀ step ∈ c.wave, step.toNat < waveLimit
  frequency : c.frequency.toNat < frequencyLimit
  samples : c.samples.Bounded
  phase : c.phase < frequencyLimit

variable {c : Channel}

theorem bounded_powerOn : powerOn.Bounded where
  waveIndex := by decide
  wave step hstep := by
    rw [Vector.eq_of_mem_replicate hstep]
    decide
  frequency := by decide
  samples := SampleBuffer.bounded_empty
  phase := by decide

/-- Send a byte to the sample buffer or to the waveform. -/
def checkedWriteData (limit : Nat) (c : Channel) (value : Byte) : Checked Channel := do
  if c.direct then
    let pushed ← c.samples.checkedPush limit value
    return { c with samples := pushed.2 }
  else
    let wave ← Checked.set c.wave c.waveIndex (value % 32)
    let next ← Checked.add limit c.waveIndex 1
    return { c with wave := wave, waveIndex := next % waveSize }

def checkedNextSample (limit : Nat) (c : Channel) : Checked (Byte × Channel) := do
  let popped ← c.samples.checkedPop limit
  return (popped.1, { c with samples := popped.2 })

/-- Let clocks pass; clocks are added up in 64 bits. -/
def checkedClock (limit : Nat) (c : Channel) (clocks : Nat) : Checked (Byte × Channel) := do
  let total ← Checked.add UInt64.size c.phase clocks
  let due ← Checked.div total c.period
  let phase ← Checked.mod total c.period
  let samples ← c.samples.checkedDiscard limit (min due c.samples.count)
  return (samples.last, { c with phase := phase, samples := samples })

namespace Bounded

theorem writeFrequencyLow (h : c.Bounded) (value : Byte) : (c.writeFrequencyLow value).Bounded :=
  { h with frequency := Word.setLow_lt (n := 16) h.frequency value }

theorem writeFrequencyHigh (h : c.Bounded) (value : Byte) :
    (c.writeFrequencyHigh value).Bounded := by
  have hvalue : (value % 16).toNat < 16 := by
    rw [UInt8.toNat_mod]
    exact Nat.mod_lt _ (by decide)
  exact { h with frequency := Word.setHigh_lt hvalue }

theorem writeControl (h : c.Bounded) (value : Byte) : (c.writeControl value).Bounded := by
  unfold Channel.writeControl
  split
  · exact { h with waveIndex := (by decide : 0 < waveSize) }
  · exact { h with }

theorem writeData (h : c.Bounded) (value : Byte) : (c.writeData value).Bounded := by
  unfold Channel.writeData
  split
  · exact { h with samples := h.samples.push value }
  · refine { h with waveIndex := Nat.mod_lt _ (by decide), wave := ?_ }
    show ∀ step ∈ c.wave.setIfInBounds c.waveIndex (value % 32), step.toNat < waveLimit
    -- every step but the one just written was there before
    rw [← Checked.set_eq_setIfInBounds h.waveIndex]
    intro step hstep
    rcases Vector.mem_or_eq_of_mem_set hstep with hold | rfl
    · exact h.wave step hold
    · rw [UInt8.toNat_mod]
      exact Nat.mod_lt _ (by decide)

theorem nextSample (h : c.Bounded) : c.nextSample.2.Bounded :=
  { h with samples := h.samples.pop }

theorem period_lt (h : c.Bounded) : c.period < frequencyLimit :=
  Nat.max_lt.mpr ⟨h.frequency, by decide⟩

theorem clock (h : c.Bounded) (clocks : Nat) : (c.clock clocks).2.Bounded :=
  { h with
    samples := h.samples.discard _
    phase := Nat.lt_trans (Nat.mod_lt _ c.period_pos) h.period_lt }

theorem checkedWriteData_eq (hlimit : vramSize < limit) (h : c.Bounded) (value : Byte) :
    c.checkedWriteData limit value = .ok (c.writeData value) := by
  have hsize : waveSize < vramSize := by decide
  have hindex := h.waveIndex
  have hnext : c.waveIndex + 1 < limit := by omega
  simp only [checkedWriteData, Channel.writeData, h.samples.checkedPush_eq hlimit,
    Checked.set_ok_setIfInBounds h.waveIndex, Checked.add_ok hnext, Checked.ok_bind,
    Checked.pure_eq_ok]
  split <;> rfl

theorem checkedNextSample_eq (hlimit : vramSize < limit) (h : c.Bounded) :
    c.checkedNextSample limit = .ok c.nextSample := by
  rw [checkedNextSample, h.samples.checkedPop_eq hlimit]
  rfl

theorem checkedClock_eq (hlimit : vramSize < limit) (h : c.Bounded) (clocks : UInt32) :
    c.checkedClock limit clocks.toNat = .ok (c.clock clocks.toNat) := by
  have hphase := h.phase
  have hclocks := clocks.toNat_lt
  have htotal : c.phase + clocks.toNat < UInt64.size := by
    simp only [frequencyLimit, UInt64.size] at *
    omega
  simp only [checkedClock, Checked.add_ok htotal, Checked.div_ok c.period_pos,
    Checked.mod_ok c.period_pos, h.samples.checkedDiscard_eq hlimit, Checked.ok_bind,
    Checked.pure_eq_ok, Channel.clock]

end Bounded

end Channel

/-! ### The generator -/

namespace Generator

/-- A generator in its bounds. -/
structure Bounded (g : Generator) : Prop where
  selected : g.selected < channelCount
  channel : ∀ {n c}, g.channel? n = some c → c.Bounded
  noise : ∀ {n c}, g.channel? n = some c → n < firstNoiseChannel → c.noise = 0

variable {g : Generator}

theorem bounded_powerOn : powerOn.Bounded := by
  have hchannel : ∀ {n c}, powerOn.channel? n = some c → c = .powerOn := by
    intro n c hc
    obtain ⟨hn, rfl⟩ := Vector.getElem?_eq_some_iff.mp hc
    exact Vector.getElem_replicate hn
  refine ⟨by decide, ?_, ?_⟩
  · intro n c hc
    rw [hchannel hc]
    exact Channel.bounded_powerOn
  · intro n c hc _
    rw [hchannel hc]
    rfl

namespace Bounded

/-- Changing a channel within its bounds, and its noise only if it has some. -/
theorem modify (h : g.Bounded) (k : Nat) {f : Channel → Channel}
    (hf : ∀ c, c.Bounded → (f c).Bounded)
    (hnoise : k < firstNoiseChannel → ∀ c, (f c).noise = c.noise) : (g.modify k f).Bounded := by
  refine ⟨?_, ?_, ?_⟩
  · unfold Generator.modify
    split <;> exact h.selected
  · intro n c hc
    rw [channel?_modify] at hc
    split at hc
    · obtain ⟨old, hold, rfl⟩ := Option.map_eq_some_iff.mp hc
      exact hf old (h.channel hold)
    · exact h.channel hc
  · intro n c hc hn
    rw [channel?_modify] at hc
    split at hc
    · rename_i hk
      obtain ⟨old, hold, rfl⟩ := Option.map_eq_some_iff.mp hc
      rw [hnoise (hk ▸ hn)]
      exact h.noise hold hn
    · exact h.noise hc hn

theorem select (h : g.Bounded) (value : Byte) :
    Bounded { g with selected := (selection? value).getD g.selected } := by
  refine { h with selected := ?_ }
  show (selection? value).getD g.selected < channelCount
  unfold selection?
  split
  · assumption
  · exact h.selected

/-- **Writing a register keeps the generator in its bounds.** -/
theorem write (h : g.Bounded) (register : Nat) (value : Byte) :
    (g.write register value).Bounded := by
  unfold Generator.write
  split
  · exact h.select value
  · exact { h with }
  · exact h.modify _ (fun c hc => hc.writeFrequencyLow value) fun _ _ => rfl
  · exact h.modify _ (fun c hc => hc.writeFrequencyHigh value) fun _ _ => rfl
  · refine h.modify _ (fun c hc => hc.writeControl value) fun _ c => ?_
    unfold Channel.writeControl
    split <;> rfl
  · exact h.modify _ (fun c hc => { hc with }) fun _ _ => rfl
  · refine h.modify _ (fun c hc => hc.writeData value) fun _ c => ?_
    unfold Channel.writeData
    split <;> rfl
  · split
    · rename_i hnoisy
      exact h.modify _ (fun c hc => { hc with }) fun hsilent => absurd hsilent (by omega)
    · exact h
  all_goals exact { h with }

theorem nextSample (h : g.Bounded) (n : Nat) : (g.nextSample n).2.Bounded := by
  rw [snd_nextSample]
  exact h.modify n (fun c hc => hc.nextSample) fun _ _ => rfl

theorem clock (h : g.Bounded) (n clocks : Nat) : (g.clock n clocks).2.Bounded := by
  rw [snd_clock]
  exact h.modify n (fun c hc => hc.clock clocks) fun _ _ => rfl

end Bounded

/-! ### Checked operations -/

/-- Change the selected channel. -/
def checkedModify (g : Generator) (f : Channel → Checked Channel) : Checked Generator := do
  let c ← Checked.get g.channels g.selected
  return { g with channels := ← Checked.set g.channels g.selected (← f c) }

/-- Write a register. -/
def checkedWrite (limit : Nat) (g : Generator) (register : Nat) (value : Byte) :
    Checked Generator :=
  match register % 16 with
  | 2 => g.checkedModify fun c => return c.writeFrequencyLow value
  | 3 => g.checkedModify fun c => return c.writeFrequencyHigh value
  | 4 => g.checkedModify fun c => return c.writeControl value
  | 5 => g.checkedModify fun c => return { c with balance := value }
  | 6 => g.checkedModify fun c => c.checkedWriteData limit value
  | 7 =>
    if firstNoiseChannel ≤ g.selected then
      g.checkedModify fun c => return { c with noise := value }
    else return g
  -- these have no channel
  | _ => return g.write register value

/-- Take one sample from a channel. -/
def checkedNextSample (limit : Nat) (g : Generator) (n : Nat) : Checked (Byte × Generator) :=
  match g.channel? n with
  | some c => do
    let taken ← c.checkedNextSample limit
    return (taken.1, { g with channels := ← Checked.set g.channels n taken.2 })
  | none => return (0, g)

/-- Let clocks pass on a channel. -/
def checkedClock (limit : Nat) (g : Generator) (n clocks : Nat) : Checked (Byte × Generator) :=
  match g.channel? n with
  | some c => do
    let clocked ← c.checkedClock limit clocks
    return (clocked.1, { g with channels := ← Checked.set g.channels n clocked.2 })
  | none => return (0, g)

/-! ### In its bounds the generator does not fail -/

namespace Bounded

theorem checkedModify_eq (h : g.Bounded) {f : Channel → Checked Channel}
    {f' : Channel → Channel} (hf : ∀ c, c.Bounded → f c = .ok (f' c)) :
    g.checkedModify f = .ok (g.modify g.selected f') := by
  have hchannel : g.channel? g.selected = some (g.channels.get ⟨g.selected, h.selected⟩) :=
    Vector.getElem?_eq_getElem h.selected
  simp only [checkedModify, Checked.get_ok h.selected, Checked.ok_bind,
    hf _ (h.channel hchannel), Checked.set_ok_setIfInBounds h.selected, Checked.pure_eq_ok,
    Generator.modify, hchannel]

/-- **Writing a register of a generator in its bounds does not fail.** -/
theorem checkedWrite_eq (hlimit : vramSize < limit) (h : g.Bounded) (register : Nat)
    (value : Byte) : g.checkedWrite limit register value = .ok (g.write register value) := by
  unfold checkedWrite
  split
  case h_7 => rfl
  case h_6 hregister =>
    simp only [Generator.write, hregister]
    split
    · exact h.checkedModify_eq fun _ _ => rfl
    · rfl
  case h_5 hregister =>
    simp only [Generator.write, hregister]
    exact h.checkedModify_eq fun c hc => hc.checkedWriteData_eq hlimit value
  -- nothing is looked up in the channel
  all_goals
    rename_i hregister
    simp only [Generator.write, hregister]
    exact h.checkedModify_eq fun _ _ => rfl

theorem checkedNextSample_eq (hlimit : vramSize < limit) (h : g.Bounded) (n : Nat) :
    g.checkedNextSample limit n = .ok (g.nextSample n) := by
  rcases hc : g.channel? n with - | c
  · simp only [checkedNextSample, Generator.nextSample, hc, Checked.pure_eq_ok]
  · obtain ⟨hlt, -⟩ := Vector.getElem?_eq_some_iff.mp hc
    simp only [checkedNextSample, Generator.nextSample, Generator.modify, hc,
      (h.channel hc).checkedNextSample_eq hlimit, Checked.set_ok_setIfInBounds hlt,
      Checked.ok_bind, Checked.pure_eq_ok]

theorem checkedClock_eq (hlimit : vramSize < limit) (h : g.Bounded) (n : Nat)
    (clocks : UInt32) : g.checkedClock limit n clocks.toNat = .ok (g.clock n clocks.toNat) := by
  rcases hc : g.channel? n with - | c
  · simp only [checkedClock, Generator.clock, hc, Checked.pure_eq_ok]
  · obtain ⟨hlt, -⟩ := Vector.getElem?_eq_some_iff.mp hc
    simp only [checkedClock, Generator.clock, Generator.modify, hc,
      (h.channel hc).checkedClock_eq hlimit, Checked.set_ok_setIfInBounds hlt,
      Checked.ok_bind, Checked.pure_eq_ok]

end Bounded

end Generator

end PcEngine.Sound
