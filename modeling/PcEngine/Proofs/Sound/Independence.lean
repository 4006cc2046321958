/-
PcEngine/Proofs/Sound/Independence.lean

The channels of the sound generator do not touch each other.

Six channels share one window of registers and one selection.  An operation is
aimed at a channel (`AimedAt`) if it asks that channel for samples, or if it
writes one of the registers 2 to 7 while the channel is selected.  What it then
does to the channel depends on the channel alone (`Channel.act`), and an operation
that is not aimed at a channel leaves it as it is (`channel_step`).

So a channel can be followed without the generator.  Of a run, only the operations
aimed at the channel count (`aimed`): carried out on a channel by itself
(`channel_run`), or on a generator to which nothing else is done
(`channel_run_aimed`), they lead to the same channel.

Whether a write is aimed at a channel depends on the selection at that moment.
This is that of the last select of a channel that exists (`selected_run`).

Main result: `independent_run`, for every run of register writes and sample requests
from power-on.
-/
import PcEngine.Proofs.Sound.Stream

namespace PcEngine.Sound

/-! ### One channel by itself -/

/-- Whether a register belongs to the selected channel. -/
def IsChannelRegister (register : Nat) : Prop := 2 ≤ register % 16 ∧ register % 16 ≤ 7

instance (register : Nat) : Decidable (IsChannelRegister register) := by
  unfold IsChannelRegister; infer_instance

namespace Channel

/-- Write a register of channel number `n`; not every channel can make noise. -/
def writeRegister (n : Nat) (c : Channel) (register : Nat) (value : Byte) : Channel :=
  match register % 16 with
  | 2 => c.writeFrequencyLow value
  | 3 => c.writeFrequencyHigh value
  | 4 => c.writeControl value
  | 5 => { c with balance := value }
  | 6 => c.writeData value
  | 7 => if firstNoiseChannel ≤ n then { c with noise := value } else c
  | _ => c

/-- What an operation does to channel number `n` if it is aimed at it. -/
def act (n : Nat) (c : Channel) : Op → Channel
  | .write register value => c.writeRegister n register value
  | .nextSample _ => c.nextSample.2
  | .clock _ clocks => (c.clock clocks).2
  | .reset => .powerOn

end Channel

namespace Generator

variable {g lone : Generator} {n : Fin channelCount} {op : Op} {ops : List Op}
variable {register : Nat} {value : Byte}

/-! ### The channels of a generator -/

/-- Channel number `n`. -/
def channel (g : Generator) (n : Fin channelCount) : Channel := g.channels.get n

theorem channel_modify (g : Generator) (k : Nat) (f : Channel → Channel) (n : Fin channelCount) :
    (g.modify k f).channel n = if k = n.val then f (g.channel n) else g.channel n :=
  channels_modify g k f n

theorem channel_powerOn (n : Fin channelCount) : powerOn.channel n = .powerOn :=
  channels_powerOn n

/-! ### Register writes -/

theorem modify_self (g : Generator) (k : Nat) : (g.modify k fun c => c) = g := by
  unfold modify channel?
  rcases hc : g.channels[k]? with - | c
  · rfl
  · obtain ⟨hk, rfl⟩ := Vector.getElem?_eq_some_iff.mp hc
    have hset : g.channels.setIfInBounds k g.channels[k] = g.channels := by
      ext i hi
      rw [Vector.getElem_setIfInBounds]
      split
      · simp only [*]
      · rfl
    show { g with channels := g.channels.setIfInBounds k g.channels[k] } = g
    rw [hset]

/-- A register of the selected channel changes that channel, as if it were alone. -/
theorem write_eq_modify (h : IsChannelRegister register) (value : Byte) :
    g.write register value =
      g.modify g.selected fun c => c.writeRegister g.selected register value := by
  obtain ⟨hlow, hhigh⟩ := h
  have hcases : register % 16 = 2 ∨ register % 16 = 3 ∨ register % 16 = 4 ∨
      register % 16 = 5 ∨ register % 16 = 6 ∨ register % 16 = 7 := by omega
  rcases hcases with e | e | e | e | e | e <;> simp only [write, Channel.writeRegister, e]
  -- the generator looks at the number of the channel, the channel at its own
  by_cases hnoise : firstNoiseChannel ≤ g.selected
  · simp only [if_pos hnoise]
  · simp only [if_neg hnoise, modify_self]

/-- The channel that an operation selects, if it selects one that exists. -/
def selects? : Op → Option Nat
  | .write register value => if register % 16 = 0 then selection? value else none
  | _ => none

/-- The other registers change no channel, and one of them the selection. -/
theorem write_of_not (h : ¬IsChannelRegister register) (value : Byte) :
    (g.write register value).channels = g.channels ∧
      (g.write register value).selected =
        (selects? (.write register value)).getD g.selected := by
  rw [selects?]
  unfold write
  split
  case h_3 e | h_4 e | h_5 e | h_6 e | h_7 e | h_8 e =>
    refine absurd ?_ h
    rw [IsChannelRegister, e]
    decide
  case h_11 hother _ _ _ _ _ _ _ _ _ => exact ⟨rfl, by rw [if_neg hother]; rfl⟩
  all_goals next e => exact ⟨rfl, by rw [e]; rfl⟩

@[simp] theorem selected_modify (g : Generator) (k : Nat) (f : Channel → Channel) :
    (g.modify k f).selected = g.selected := by
  unfold modify
  split <;> rfl

/-! ### What an operation does to a channel -/

/-- Whether an operation is aimed at a channel: a write to a register of the selected
channel, or a request for samples. -/
def AimedAt (n : Fin channelCount) (g : Generator) : Op → Prop
  | .write register _ => IsChannelRegister register ∧ g.selected = n.val
  | .nextSample k | .clock k _ => k = n.val
  | .reset => False

instance (n : Fin channelCount) (g : Generator) (op : Op) : Decidable (AimedAt n g op) := by
  cases op <;> unfold AimedAt <;> infer_instance

theorem channel_write (g : Generator) (register : Nat) (value : Byte) (n : Fin channelCount) :
    (g.write register value).channel n =
      if IsChannelRegister register ∧ g.selected = n.val then
        (g.channel n).writeRegister n.val register value
      else g.channel n := by
  by_cases hregister : IsChannelRegister register
  · rw [write_eq_modify hregister, channel_modify]
    by_cases hselected : g.selected = n.val
    · rw [if_pos hselected, if_pos ⟨hregister, hselected⟩, hselected]
    · rw [if_neg hselected, if_neg fun h => hselected h.2]
  · rw [if_neg fun h => hregister h.1, channel, (write_of_not hregister value).1, channel]

/-- **What every operation but a reset does to a channel**: what it would do to the
channel by itself if it is aimed at it, and nothing otherwise. -/
theorem channel_step (h : op ≠ .reset) (n : Fin channelCount) :
    (g.step op).2.channel n =
      if AimedAt n g op then (g.channel n).act n.val op else g.channel n := by
  cases op with
  | write register value => exact channel_write g register value n
  | nextSample k =>
    show (g.nextSample k).2.channel n = _
    rw [snd_nextSample, channel_modify]
    rfl
  | clock k clocks =>
    show (g.clock k clocks).2.channel n = _
    rw [snd_clock, channel_modify]
    rfl
  | reset => exact absurd rfl h

/-! ### The selection -/

theorem selected_write (g : Generator) (register : Nat) (value : Byte) :
    (g.write register value).selected = (selects? (.write register value)).getD g.selected := by
  by_cases hregister : IsChannelRegister register
  · have hselect : register % 16 ≠ 0 := fun e => by
      have hlow := hregister.1
      omega
    rw [write_eq_modify hregister, selected_modify, selects?, if_neg hselect]
    rfl
  · exact (write_of_not hregister value).2

theorem selected_step (h : op ≠ .reset) :
    (g.step op).2.selected = (selects? op).getD g.selected := by
  cases op with
  | write register value => exact selected_write g register value
  | nextSample k =>
    show (g.nextSample k).2.selected = g.selected
    rw [snd_nextSample, selected_modify]
  | clock k clocks =>
    show (g.clock k clocks).2.selected = g.selected
    rw [snd_clock, selected_modify]
  | reset => exact absurd rfl h

/-- What is aimed at a channel selects nothing. -/
theorem selects?_of_aimedAt (h : AimedAt n g op) : selects? op = none := by
  cases op with
  | write register value =>
    have hregister : register % 16 ≠ 0 := fun e => by
      have hlow := h.1.1
      omega
    exact if_neg hregister
  | nextSample k | clock k clocks => rfl
  | reset => exact h.elim

/-- The selected channel is the one selected last. -/
theorem selected_run (h : ∀ op ∈ ops, op ≠ .reset) :
    (g.run ops).selected = (ops.filterMap selects?).getLastD g.selected := by
  induction ops generalizing g with
  | nil => rfl
  | cons op ops ih =>
    obtain ⟨hop, hrest⟩ := List.forall_mem_cons.mp h
    have hstep := selected_step (g := g) hop
    show ((g.step op).2.run ops).selected = _
    rw [ih hrest, hstep, List.filterMap_cons]
    rcases selects? op with - | k
    · rfl
    · exact (List.getLastD_cons ..).symm

/-! ### Following a channel -/

/-- The operations of a run that are aimed at a channel, in order. -/
def aimed (n : Fin channelCount) : Generator → List Op → List Op :=
  collect (fun g op => (g.step op).2) fun g op => if AimedAt n g op then [op] else []

theorem aimed_cons_of_pos (h : AimedAt n g op) (ops : List Op) :
    aimed n g (op :: ops) = op :: aimed n (g.step op).2 ops := by
  show (if AimedAt n g op then [op] else []) ++ aimed n (g.step op).2 ops = _
  rw [if_pos h]
  rfl

theorem aimed_cons_of_neg (h : ¬AimedAt n g op) (ops : List Op) :
    aimed n g (op :: ops) = aimed n (g.step op).2 ops := by
  show (if AimedAt n g op then [op] else []) ++ aimed n (g.step op).2 ops = _
  rw [if_neg h]
  rfl

/-- A channel after a run is a channel by itself after the operations aimed at it. -/
theorem channel_run (h : ∀ op ∈ ops, op ≠ .reset) (n : Fin channelCount) :
    (g.run ops).channel n = (aimed n g ops).foldl (Channel.act n.val) (g.channel n) := by
  induction ops generalizing g with
  | nil => rfl
  | cons op ops ih =>
    obtain ⟨hop, hrest⟩ := List.forall_mem_cons.mp h
    have hstep := channel_step (g := g) hop n
    show ((g.step op).2.run ops).channel n = _
    by_cases haimed : AimedAt n g op
    · rw [ih hrest, hstep, if_pos haimed, aimed_cons_of_pos haimed, List.foldl_cons]
    · rw [ih hrest, hstep, if_neg haimed, aimed_cons_of_neg haimed]

/-- What is aimed at a channel is aimed at it on every generator on which the channel
is selected. -/
theorem aimedAt_of_selected (h : AimedAt n g op) (hselected : lone.selected = n.val) :
    AimedAt n lone op := by
  cases op with
  | write register value => exact ⟨h.1, hselected⟩
  | nextSample k | clock k clocks => exact h
  | reset => exact h

/-- A generator that is only given the operations aimed at a channel, with that channel
selected, has the channel of the generator that is given all of them. -/
theorem channel_run_aimed (h : ∀ op ∈ ops, op ≠ .reset) (hselected : lone.selected = n.val)
    (hchannel : lone.channel n = g.channel n) :
    (lone.run (aimed n g ops)).channel n = (g.run ops).channel n := by
  induction ops generalizing g lone with
  | nil => exact hchannel
  | cons op ops ih =>
    obtain ⟨hop, hrest⟩ := List.forall_mem_cons.mp h
    have hstep := channel_step (g := g) hop n
    show _ = ((g.step op).2.run ops).channel n
    by_cases haimed : AimedAt n g op
    · -- both carry it out, and the selection stays
      have hlone := aimedAt_of_selected haimed hselected
      rw [aimed_cons_of_pos haimed]
      refine ih hrest ?_ ?_
      · rw [selected_step hop, selects?_of_aimedAt haimed]
        exact hselected
      · rw [channel_step hop, if_pos hlone, hstep, if_pos haimed, hchannel]
    · -- only the whole generator carries it out
      rw [aimed_cons_of_neg haimed]
      refine ih hrest hselected ?_
      rw [hstep, if_neg haimed, hchannel]

/-! ### From power-on -/

/-- Each channel after a run from power-on does not depend on the others.

* `alone` — it is what the operations aimed at it make of a channel by itself;
* `replay` — and of a generator to which nothing else is done;
* `selected` — a write is aimed at the channel that was selected last. -/
structure Independent (ops : List Op) : Prop where
  alone : ∀ n : Fin channelCount, (powerOn.run ops).channel n =
    (aimed n powerOn ops).foldl (Channel.act n.val) .powerOn
  replay : ∀ n : Fin channelCount, (powerOn.run ops).channel n =
    ((powerOn.write 0 (UInt8.ofNat n.val)).run (aimed n powerOn ops)).channel n
  selected : (powerOn.run ops).selected = (ops.filterMap selects?).getLastD 0

/-- What register writes leave alone.

* `selection` — selecting a channel that does not exist changes nothing;
* `shared` — registers that belong to no channel change no channel;
* `noise` — a noise write changes no channel that cannot make noise. -/
structure Spares (g : Generator) : Prop where
  selection : ∀ {register value}, register % 16 = 0 → channelCount ≤ value.toNat % 8 →
    g.write register value = g
  shared : ∀ {register value}, register % 16 < 2 ∨ 8 ≤ register % 16 →
    (g.write register value).channels = g.channels
  noise : ∀ {register value}, register % 16 = 7 → ∀ n : Fin channelCount,
    n.val < firstNoiseChannel → (g.write register value).channel n = g.channel n

theorem spares (g : Generator) : g.Spares := by
  refine ⟨?_, ?_, ?_⟩
  · intro register value hselect hnone
    have hselection : selection? value = none := if_neg (Nat.not_lt.mpr hnone)
    simp only [write, hselect, hselection, Option.getD_none]
  · intro register value hregister
    refine (write_of_not (fun h => ?_) value).1
    obtain ⟨hlow, hhigh⟩ := h
    omega
  · intro register value hregister n hsilent
    rw [channel_write]
    split
    · rw [Channel.writeRegister, hregister]
      exact if_neg (Nat.not_le.mpr hsilent)
    · rfl

/-- **The channels are independent**, after every run from power-on. -/
theorem independent_run (h : ∀ op ∈ ops, op ≠ .reset) :
    Independent ops ∧ (powerOn.run ops).Spares := by
  refine ⟨⟨fun n => ?_, fun n => ?_, selected_run h⟩, spares _⟩
  · rw [channel_run h, channel_powerOn]
  · refine (channel_run_aimed h ?_ ?_).symm
    · revert n
      decide
    · rw [channel, (write_of_not (by decide) _).1, channel]

/-- Two channels by turns, a select that is ignored, and noise for a channel that has
none. -/
def turns : List Op :=
  [.write 0 1, .write 4 0x40, .write 0 5, .write 7 0x9F, .write 0 7, .write 5 0xF0, .write 0 1,
    .write 6 7, .write 7 0x9F, .nextSample 1, .clock 5 3]

theorem independent_turns :
    (∀ op ∈ turns, op ≠ .reset) ∧ Independent turns ∧ (powerOn.run turns).Spares := by
  have h : ∀ op ∈ turns, op ≠ .reset := by simp [turns]
  exact ⟨h, independent_run h⟩

end Generator

end PcEngine.Sound
