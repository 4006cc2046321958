/-
PcEngine/Proofs/Sound/Stream.lean

Samples pass through a channel in order, and none gets lost on the way.

Three things are told of a channel along a run:

* `accepted` — the bytes that have joined its sample buffer: those written to
  the data register while the channel is selected, in direct mode and has room;
* `consumed` — the samples that have been taken from it;
* the samples that are still waiting.

Every operation keeps the balance `consumed ++ waiting = accepted`
(`balance_step`): a byte that is accepted joins the waiting samples at the end,
and what is consumed leaves them at the front.  What an operation says to the
mixer is the last sample that was consumed.

Main result: `stream_run`, for every run of register writes and sample requests
from power-on.
-/
import PcEngine.Proofs.History
import PcEngine.Proofs.Sound.SampleBuffer
import PcEngine.Sound.Generator

namespace PcEngine.Sound

theorem Channel.period_pos (c : Channel) : 0 < c.period := Nat.le_max_right _ 1

/-! ### One channel among six -/

namespace Generator

variable {g : Generator} {n : Fin channelCount} {op : Op}

theorem channels_modify (g : Generator) (k : Nat) (f : Channel → Channel) (n : Fin channelCount) :
    (g.modify k f).channels[n] = if k = n.val then f g.channels[n] else g.channels[n] := by
  unfold modify channel?
  by_cases hk : k < channelCount
  · rw [Vector.getElem?_eq_getElem hk]
    by_cases hkn : k = n.val
    · subst hkn
      simp
    · simp [hkn]
  · have hne : k ≠ n.val := fun e => hk (e ▸ n.isLt)
    rw [Vector.getElem?_eq_none (Nat.le_of_not_lt hk), if_neg hne]

theorem channel?_modify (g : Generator) (k : Nat) (f : Channel → Channel) (n : Nat) :
    (g.modify k f).channel? n = if n = k then (g.channel? n).map f else g.channel? n := by
  rcases hk : g.channel? k with - | c
  · have hkept : g.modify k f = g := by rw [modify, hk]
    rw [hkept]
    split
    · rename_i hn
      rw [hn, hk]
      rfl
    · rfl
  · obtain ⟨hlt, -⟩ := Vector.getElem?_eq_some_iff.mp hk
    have hset : (g.modify k f).channel? n = (g.channels.setIfInBounds k (f c))[n]? := by
      rw [modify, hk]
      rfl
    rw [hset, Vector.getElem?_setIfInBounds, if_pos hlt]
    by_cases hn : n = k
    · subst hn
      rw [if_pos rfl, if_pos rfl, hk]
      rfl
    · rw [if_neg (Ne.symm hn), if_neg hn]
      rfl

/-- Most registers of a channel have nothing to do with its samples. -/
theorem samples_modify {f : Channel → Channel} (hf : ∀ c, (f c).samples = c.samples) (k : Nat) :
    (g.modify k f).channels[n].samples = g.channels[n].samples := by
  rw [channels_modify]
  split
  · exact hf _
  · rfl

/-- The channels that exist, and no others. -/
theorem channel?_of_le {k : Nat} (h : channelCount ≤ k) : g.channel? k = none :=
  Vector.getElem?_eq_none h

theorem channel?_val (g : Generator) (n : Fin channelCount) :
    g.channel? n.val = some g.channels[n] :=
  Vector.getElem?_eq_getElem n.isLt

theorem snd_nextSample (g : Generator) (k : Nat) :
    (g.nextSample k).2 = g.modify k fun c => c.nextSample.2 := by
  unfold nextSample modify
  rcases g.channel? k with - | c <;> rfl

theorem snd_clock (g : Generator) (k clocks : Nat) :
    (g.clock k clocks).2 = g.modify k fun c => (c.clock clocks).2 := by
  unfold clock modify
  rcases g.channel? k with - | c <;> rfl

/-! ### What an operation accepts and consumes -/

/-- The bytes that an operation adds to the samples of a channel: a data byte, if
the channel is selected, in direct mode and has room. -/
def acceptedBy (n : Fin channelCount) (g : Generator) : Op → List Byte
  | .write register value =>
    if register % 16 = 6 ∧ g.selected = n.val ∧ g.channels[n].direct = true ∧
        g.channels[n].samples.toList.length < bufferSize then [value]
    else []
  | _ => []

/-- How many samples an operation asks a channel for: one, or as many as fall
due. -/
def drawnBy (n : Fin channelCount) (g : Generator) : Op → Nat
  | .nextSample k => if k = n.val then 1 else 0
  | .clock k clocks =>
    if k = n.val then (g.channels[n].phase + clocks) / g.channels[n].period else 0
  | _ => 0

/-- The samples that an operation takes from a channel, as far as there are any. -/
def consumedBy (n : Fin channelCount) (g : Generator) (op : Op) : List Byte :=
  g.channels[n].samples.taken (drawnBy n g op)

/-- What an operation does to the samples of a channel. -/
inductive SampleStep (n : Fin channelCount) (g : Generator) (op : Op) (after : SampleBuffer) : Prop
  | pushed (value : Byte) (haccepted : acceptedBy n g op = [value])
      (hdrawn : drawnBy n g op = 0) (hroom : g.channels[n].samples.count < bufferSize)
      (hafter : after = (g.channels[n].samples.push value).2)
  | drawn (haccepted : acceptedBy n g op = [])
      (hafter : after = g.channels[n].samples.discard (drawnBy n g op))

theorem sampleStep_kept {after : SampleBuffer} (haccepted : acceptedBy n g op = [])
    (hdrawn : drawnBy n g op = 0) (hafter : after = g.channels[n].samples) :
    SampleStep n g op after :=
  .drawn haccepted (by rw [hdrawn, hafter]; rfl)

theorem sampleStep_write (hle : g.channels[n].samples.count ≤ bufferSize) (register : Nat)
    (value : Byte) :
    SampleStep n g (.write register value) (g.write register value).channels[n].samples := by
  by_cases hdata : register % 16 = 6
  · simp only [write, hdata, channels_modify]
    by_cases hselected : g.selected = n.val
    · rw [if_pos hselected, Channel.writeData]
      rcases hdirect : g.channels[n].direct with - | -
      · -- the byte goes to the waveform
        have hnot : ¬g.channels[n].direct = true := by rw [hdirect]; exact Bool.false_ne_true
        exact sampleStep_kept (if_neg fun h => hnot h.2.2.1) rfl rfl
      · rcases Nat.lt_or_eq_of_le hle with hroom | hfull
        · refine .pushed value (if_pos ?_) rfl hroom rfl
          rw [SampleBuffer.length_toList]
          exact ⟨hdata, hselected, hdirect, hroom⟩
        · -- there is no room
          refine sampleStep_kept (if_neg ?_) rfl (SampleBuffer.push_of_full _ hfull value)
          rw [SampleBuffer.length_toList, hfull]
          exact fun h => Nat.lt_irrefl _ h.2.2.2
    · rw [if_neg hselected]
      exact sampleStep_kept (if_neg fun h => hselected h.2.1) rfl rfl
  · -- no other register reaches the samples
    refine sampleStep_kept (if_neg fun h => hdata h.1) rfl ?_
    unfold write
    split
    case h_3 | h_4 | h_6 =>
      apply samples_modify
      intro c
      rfl
    case h_5 =>
      apply samples_modify
      intro c
      unfold Channel.writeControl
      split <;> rfl
    case h_7 => contradiction
    case h_8 =>
      split
      · apply samples_modify
        intro c
        rfl
      · rfl
    all_goals rfl

theorem sampleStep_nextSample (k : Nat) :
    SampleStep n g (.nextSample k) (g.nextSample k).2.channels[n].samples := by
  refine .drawn rfl ?_
  rw [snd_nextSample, channels_modify, drawnBy]
  split <;> rfl

theorem sampleStep_clock (k clocks : Nat) :
    SampleStep n g (.clock k clocks) (g.clock k clocks).2.channels[n].samples := by
  refine .drawn rfl ?_
  rw [snd_clock, channels_modify, drawnBy]
  split
  · exact SampleBuffer.discard_min _ _
  · rfl

/-- **What every operation but a reset does to the samples of a channel.** -/
theorem sampleStep (hle : g.channels[n].samples.count ≤ bufferSize) (h : op ≠ .reset) :
    SampleStep n g op (g.step op).2.channels[n].samples := by
  cases op with
  | write register value => exact sampleStep_write hle register value
  | nextSample k => exact sampleStep_nextSample k
  | clock k clocks => exact sampleStep_clock k clocks
  | reset => contradiction

/-! ### The balance of a channel -/

/-- What is consumed and what waits after an operation is what waited before it
and what was accepted. -/
theorem balance_step (hle : g.channels[n].samples.count ≤ bufferSize) (h : op ≠ .reset) :
    consumedBy n g op ++ (g.step op).2.channels[n].samples.toList =
      g.channels[n].samples.toList ++ acceptedBy n g op := by
  rw [consumedBy]
  cases sampleStep hle h with
  | pushed value haccepted hdrawn hroom hafter =>
    rw [haccepted, hdrawn, hafter, SampleBuffer.toList_push _ hroom]
    rfl
  | drawn haccepted hafter =>
    rw [haccepted, hafter, SampleBuffer.taken_append_toList, List.append_nil]

theorem count_step_le (hle : g.channels[n].samples.count ≤ bufferSize) (h : op ≠ .reset) :
    (g.step op).2.channels[n].samples.count ≤ bufferSize := by
  cases sampleStep hle h with
  | pushed value _ _ hroom hafter =>
    rw [hafter, SampleBuffer.push_of_lt _ hroom]
    exact hroom
  | drawn _ hafter =>
    rw [hafter]
    exact Nat.le_trans (SampleBuffer.count_discard_le _ _) hle

/-- The sample that is held after an operation is the last one consumed. -/
theorem last_step (hle : g.channels[n].samples.count ≤ bufferSize) (h : op ≠ .reset) :
    (g.step op).2.channels[n].samples.last =
      (consumedBy n g op).getLastD g.channels[n].samples.last := by
  rw [consumedBy]
  cases sampleStep hle h with
  | pushed value _ hdrawn _ hafter =>
    rw [hdrawn, hafter, SampleBuffer.last_push]
    rfl
  | drawn _ hafter => rw [hafter, SampleBuffer.last_discard]

/-! ### Runs -/

/-- The bytes that have joined the samples of a channel along a run, in order. -/
def accepted (n : Fin channelCount) : Generator → List Op → List Byte :=
  collect (fun g op => (g.step op).2) (acceptedBy n)

/-- The samples that have been taken from a channel along a run, in order. -/
def consumed (n : Fin channelCount) : Generator → List Op → List Byte :=
  collect (fun g op => (g.step op).2) (consumedBy n)

/-- What a run keeps of the samples of a channel.

* `balance` — what is consumed and what waits is what waited and what was
  accepted;
* `last` — the last sample consumed is held;
* `count` — no more samples wait than there is room for. -/
structure KeepsSamples (n : Fin channelCount) (g : Generator) (ops : List Op) : Prop where
  balance : consumed n g ops ++ (g.run ops).channels[n].samples.toList =
    g.channels[n].samples.toList ++ accepted n g ops
  last : (g.run ops).channels[n].samples.last =
    (consumed n g ops).getLastD g.channels[n].samples.last
  count : (g.run ops).channels[n].samples.count ≤ bufferSize

theorem keepsSamples {ops : List Op} (hle : g.channels[n].samples.count ≤ bufferSize)
    (h : ∀ op ∈ ops, op ≠ .reset) : KeepsSamples n g ops := by
  induction ops generalizing g with
  | nil => exact ⟨(List.append_nil _).symm, rfl, hle⟩
  | cons op ops ih =>
    have hop : op ≠ .reset := h op List.mem_cons_self
    have hrest := ih (count_step_le hle hop) fun o ho => h o (List.mem_cons_of_mem op ho)
    refine ⟨?_, ?_, hrest.count⟩
    · calc consumed n g (op :: ops) ++ (g.run (op :: ops)).channels[n].samples.toList
          = consumedBy n g op ++ (consumed n (g.step op).2 ops ++
              ((g.step op).2.run ops).channels[n].samples.toList) := List.append_assoc ..
        _ = (consumedBy n g op ++ (g.step op).2.channels[n].samples.toList) ++
              accepted n (g.step op).2 ops := by rw [hrest.balance, List.append_assoc]
        _ = g.channels[n].samples.toList ++ accepted n g (op :: ops) := by
          rw [balance_step hle hop, List.append_assoc]
          rfl
    · calc (g.run (op :: ops)).channels[n].samples.last
          = (consumed n (g.step op).2 ops).getLastD
              ((consumedBy n g op).getLastD g.channels[n].samples.last) := by
            rw [← last_step hle hop]
            exact hrest.last
        _ = (consumed n g (op :: ops)).getLastD g.channels[n].samples.last :=
          (getLastD_append ..).symm

/-! ### From power-on -/

theorem channels_powerOn (n : Fin channelCount) : powerOn.channels[n] = .powerOn :=
  Vector.getElem_replicate n.isLt

/-- What a request gives is the sample that is held after it. -/
theorem fst_nextSample (g : Generator) (n : Fin channelCount) :
    (g.nextSample n).1 = (g.nextSample n).2.channels[n].samples.last := by
  rw [snd_nextSample, channels_modify, if_pos rfl]
  simp only [nextSample, channel?_val]
  exact g.channels[n].samples.pop_fst

theorem fst_clock (g : Generator) (n : Fin channelCount) (clocks : Nat) :
    (g.clock n clocks).1 = (g.clock n clocks).2.channels[n].samples.last := by
  rw [snd_clock, channels_modify, if_pos rfl]
  simp only [clock, channel?_val]
  rfl

/-- The samples of a channel after a run from power-on.

* `balance` — those consumed from it, followed by those that still wait, are
  those accepted, in order;
* `nextSample`, `clock` — a request gives the last sample consumed, its own
  included, or zero if there was none. -/
structure Streams (n : Fin channelCount) (ops : List Op) : Prop where
  balance : consumed n powerOn ops ++ (powerOn.run ops).channels[n].samples.toList =
    accepted n powerOn ops
  nextSample : ((powerOn.run ops).nextSample n).1 =
    (consumed n powerOn (ops ++ [.nextSample n])).getLastD 0
  clock : ∀ clocks, ((powerOn.run ops).clock n clocks).1 =
    (consumed n powerOn (ops ++ [.clock n clocks])).getLastD 0

theorem keepsSamples_powerOn (n : Fin channelCount) {ops : List Op}
    (h : ∀ op ∈ ops, op ≠ .reset) : KeepsSamples n powerOn ops := by
  refine keepsSamples ?_ h
  rw [channels_powerOn]
  exact Nat.zero_le _

/-- The sample held after one more operation is the last one consumed. -/
theorem last_run_concat (n : Fin channelCount) {ops : List Op} (h : ∀ op ∈ ops, op ≠ .reset)
    (op : Op) (hop : op ≠ .reset) :
    ((powerOn.run ops).step op).2.channels[n].samples.last =
      (consumed n powerOn (ops ++ [op])).getLastD 0 := by
  have hall : ∀ o ∈ ops ++ [op], o ≠ .reset := by
    intro o ho
    rcases List.mem_append.mp ho with ho | ho
    · exact h o ho
    · rwa [List.mem_singleton.mp ho]
  have hlast := (keepsSamples_powerOn n hall).last
  rw [run, List.foldl_append, channels_powerOn] at hlast
  exact hlast

/-- **Samples pass through every channel in order**, whatever else happens to the
generator; channels that do not exist give zero and do nothing. -/
theorem stream_run {ops : List Op} (h : ∀ op ∈ ops, op ≠ .reset) :
    (∀ n, Streams n ops) ∧
      ∀ k, channelCount ≤ k →
        (powerOn.run ops).nextSample k = (0, powerOn.run ops) ∧
          ∀ clocks, (powerOn.run ops).clock k clocks = (0, powerOn.run ops) := by
  constructor
  · intro n
    refine ⟨?_, ?_, fun clocks => ?_⟩
    · rw [(keepsSamples_powerOn n h).balance, channels_powerOn]
      rfl
    · rw [fst_nextSample]
      exact last_run_concat n h (.nextSample n) Op.noConfusion
    · rw [fst_clock]
      exact last_run_concat n h (.clock n clocks) Op.noConfusion
  · intro k hk
    simp only [nextSample, clock, channel?_of_le hk, implies_true, and_self]

/-- Two samples sent to channel 1, one of them taken back. -/
def twoSamples : List Op :=
  [.write 0 1, .write 4 0x40, .write 6 7, .write 6 9, .nextSample 1]

theorem stream_twoSamples :
    (∀ op ∈ twoSamples, op ≠ .reset) ∧ (∀ n, Streams n twoSamples) ∧
      ∀ k, channelCount ≤ k →
        (powerOn.run twoSamples).nextSample k = (0, powerOn.run twoSamples) ∧
          ∀ clocks, (powerOn.run twoSamples).clock k clocks = (0, powerOn.run twoSamples) := by
  have h : ∀ op ∈ twoSamples, op ≠ .reset := by simp [twoSamples]
  exact ⟨h, stream_run h⟩

end Generator

end PcEngine.Sound
