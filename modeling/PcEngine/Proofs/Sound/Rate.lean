/-
PcEngine/Proofs/Sound/Rate.lean

How fast clocks drain a channel.

A channel that is clocked owes the mixer a sample for every period, and `phase` is the
clocks since it last owed one.  As long as these are short of a period, letting clocks
pass takes at most one sample for every period that the clocks begin (`KeepsRate`).

But the phase is what the last clocking left, under the period of that time.  Writing the
frequency changes the period and not the phase.  If the period gets shorter, the phase may
hold several of the new periods, and the next clocking pays for all of them, even if no
clock passes (`not_keepsRate_shortened`).  This is the only way to break the rate:

* the rate is kept exactly while the phase is short of a period, or nothing is waiting
  (`keepsRate_iff`);
* the phase is always short of the period at the last clocking, which is read off the
  operations (`lastPeriodAfter`, `phase_run`).

Main result: `drains_run`, for every run from power-on.
-/
import Mathlib.Algebra.Order.Floor.Div
import PcEngine.Proofs.Sound.Independence

namespace PcEngine.Sound

/-! ### Registers and the phase -/

namespace Channel

/-- No register reaches the phase. -/
theorem phase_writeRegister (n : Nat) (c : Channel) (register : Nat) (value : Byte) :
    (c.writeRegister n register value).phase = c.phase := by
  unfold writeRegister
  split
  case h_3 =>
    unfold writeControl
    split <;> rfl
  case h_5 =>
    unfold writeData
    split <;> rfl
  case h_6 => split <;> rfl
  all_goals rfl

end Channel

/-! ### Periods begun and periods ended -/

section

variable {phase period clocks : Nat}

/-- Short of a period, no more periods end than the clocks begin. -/
theorem div_le_ceilDiv (h : phase < period) : (phase + clocks) / period ≤ clocks ⌈/⌉ period := by
  rw [Nat.ceilDiv_eq_add_pred_div]
  exact Nat.div_le_div_right (by omega)

/-- Periods that the phase already holds end in addition. -/
theorem div_le_ceilDiv_add (hpos : 0 < period) :
    (phase + clocks) / period ≤ clocks ⌈/⌉ period + phase / period := by
  have hsplit : phase + clocks = period * (phase / period) + (phase % period + clocks) := by
    rw [← Nat.add_assoc, Nat.div_add_mod]
  have hrest : (phase % period + clocks) / period ≤ clocks ⌈/⌉ period :=
    div_le_ceilDiv (Nat.mod_lt phase hpos)
  rw [hsplit, Nat.mul_add_div hpos, Nat.add_comm]
  exact Nat.add_le_add_right hrest _

end

namespace Generator

variable {g : Generator} {n : Fin channelCount}

/-! ### Samples taken by clocks -/

/-- How many samples clocks take from those that are waiting on a channel. -/
def drained (n : Fin channelCount) (g : Generator) (clocks : Nat) : Nat :=
  (g.channel n).samples.count - ((g.clock n.val clocks).2.channel n).samples.count

/-- Whatever number of clocks pass on a channel next, they take at most one sample for
every period that they begin. -/
def KeepsRate (n : Fin channelCount) (g : Generator) : Prop :=
  ∀ clocks, drained n g clocks ≤ clocks ⌈/⌉ (g.channel n).period

/-- A sample is taken for every period that ends, as long as samples are waiting. -/
theorem drained_eq (n : Fin channelCount) (g : Generator) (clocks : Nat) :
    drained n g clocks =
      min (((g.channel n).phase + clocks) / (g.channel n).period) (g.channel n).samples.count := by
  rw [drained, snd_clock, channel_modify, if_pos rfl, Channel.clock, SampleBuffer.count_discard]
  exact Nat.sub_sub_self (Nat.min_le_right _ _)

theorem drained_le (n : Fin channelCount) (g : Generator) (clocks : Nat) :
    drained n g clocks ≤
      clocks ⌈/⌉ (g.channel n).period + (g.channel n).phase / (g.channel n).period := by
  rw [drained_eq]
  exact Nat.le_trans (Nat.min_le_left _ _) (div_le_ceilDiv_add (g.channel n).period_pos)

/-- **The rate is kept exactly while the phase is short of a period**, or nothing is
waiting. -/
theorem keepsRate_iff :
    KeepsRate n g ↔
      (g.channel n).phase < (g.channel n).period ∨ (g.channel n).samples.count = 0 := by
  constructor
  · intro h
    by_contra hbroken
    obtain ⟨hphase, hcount⟩ := not_or.mp hbroken
    -- a period has ended already, and is paid for without a clock
    have hended : 0 < (g.channel n).phase / (g.channel n).period :=
      Nat.div_pos (Nat.le_of_not_lt hphase) (g.channel n).period_pos
    have hnone := h 0
    rw [drained_eq, Nat.add_zero, zero_ceilDiv] at hnone
    omega
  · rintro (hphase | hcount) clocks
    · rw [drained_eq]
      exact Nat.le_trans (Nat.min_le_left _ _) (div_le_ceilDiv hphase)
    · rw [drained_eq, hcount, Nat.min_zero]
      exact Nat.zero_le _

/-! ### The period of the last clocking -/

/-- The period at the last clocking of a channel after an operation, if `last` was it
before: a clocking takes the channel's period, and after a reset there was none, which
counts as one clock. -/
def lastPeriodBy (n : Fin channelCount) (last : Nat) (g : Generator) : Op → Nat
  | .clock k _ => if k = n.val then (g.channel n).period else last
  | .reset => 1
  | _ => last

/-- The period at the last clocking after operations carried out one after the other. -/
def lastPeriodAfter (n : Fin channelCount) (last : Nat) (g : Generator) : List Op → Nat
  | [] => last
  | op :: ops => lastPeriodAfter n (lastPeriodBy n last g op) (g.step op).2 ops

variable {last : Nat}

/-- Every operation leaves a phase that is short of that period. -/
theorem phase_step (h : (g.channel n).phase < last) (op : Op) :
    ((g.step op).2.channel n).phase < lastPeriodBy n last g op := by
  cases op with
  | write register value =>
    rw [channel_step Op.noConfusion]
    split
    · exact (Channel.phase_writeRegister ..).trans_lt h
    · exact h
  | nextSample k =>
    rw [channel_step Op.noConfusion]
    split <;> exact h
  | clock k clocks =>
    rw [channel_step Op.noConfusion, lastPeriodBy]
    by_cases hk : k = n.val
    · have haimed : AimedAt n g (.clock k clocks) := hk
      rw [if_pos haimed, if_pos hk]
      exact Nat.mod_lt _ (g.channel n).period_pos
    · have haimed : ¬AimedAt n g (.clock k clocks) := hk
      rw [if_neg haimed, if_neg hk]
      exact h
  | reset =>
    show (powerOn.channel n).phase < 1
    rw [channel_powerOn]
    exact Nat.one_pos

/-- Every run does. -/
theorem phase_run (h : (g.channel n).phase < last) (ops : List Op) :
    ((g.run ops).channel n).phase < lastPeriodAfter n last g ops := by
  induction ops generalizing g last with
  | nil => exact h
  | cons op ops ih => exact ih (phase_step h op)

/-! ### From power-on -/

/-- How clocks drain a channel after a run from power-on.

* `drained` — a sample is taken for every period that ends, those in the phase included, as
  long as samples are waiting;
* `rate` — the channel keeps its rate exactly while its phase is short of a period, or
  nothing is waiting;
* `phase` — the phase is short of the period at the last clocking;
* `kept` — so the channel keeps its rate unless its period has become shorter since then;
* `excess` — and never takes more than its rate allows and the periods that the phase
  holds. -/
structure Drains (n : Fin channelCount) (ops : List Op) : Prop where
  drained : ∀ clocks, drained n (powerOn.run ops) clocks =
    min ((((powerOn.run ops).channel n).phase + clocks) / ((powerOn.run ops).channel n).period)
      ((powerOn.run ops).channel n).samples.count
  rate : KeepsRate n (powerOn.run ops) ↔
    ((powerOn.run ops).channel n).phase < ((powerOn.run ops).channel n).period ∨
      ((powerOn.run ops).channel n).samples.count = 0
  phase : ((powerOn.run ops).channel n).phase < lastPeriodAfter n 1 powerOn ops
  kept : lastPeriodAfter n 1 powerOn ops ≤ ((powerOn.run ops).channel n).period →
    KeepsRate n (powerOn.run ops)
  excess : ∀ clocks, Generator.drained n (powerOn.run ops) clocks ≤
    clocks ⌈/⌉ ((powerOn.run ops).channel n).period +
      ((powerOn.run ops).channel n).phase / ((powerOn.run ops).channel n).period

/-- **A channel is drained at its rate, unless its period has become shorter since it was
clocked last**, after every run from power-on. -/
theorem drains_run (n : Fin channelCount) (ops : List Op) : Drains n ops := by
  have hstart : (powerOn.channel n).phase < 1 := by
    rw [channel_powerOn]
    exact Nat.one_pos
  have hphase := phase_run hstart ops
  refine ⟨drained_eq n _, keepsRate_iff, hphase, fun hle => ?_, drained_le n _⟩
  exact keepsRate_iff.mpr (.inl (Nat.lt_of_lt_of_le hphase hle))

/-- Two samples for channel 0, two clocks with a period of three, and then a period of one
clock. -/
def shortened : List Op :=
  [.write 4 0x40, .write 6 7, .write 6 9, .write 2 3, .clock 0 2, .write 2 1]

/-- Both samples are then taken without a clock. -/
theorem not_keepsRate_shortened :
    let first : Fin channelCount := ⟨0, by decide⟩
    drained first (powerOn.run shortened) 0 = 2 ∧
      0 ⌈/⌉ ((powerOn.run shortened).channel first).period = 0 ∧
      ¬KeepsRate first (powerOn.run shortened) := by
  intro first
  have htaken : drained first (powerOn.run shortened) 0 = 2 := by decide
  refine ⟨htaken, zero_ceilDiv _, fun h => ?_⟩
  have hnone := h 0
  rw [htaken, zero_ceilDiv] at hnone
  omega

end Generator

end PcEngine.Sound
