/-
PcEngine/Proofs/Sound/Waveform.lean

Bytes fill the waveform of a channel around and around.

Outside direct mode a data byte becomes the next step of the waveform, five bits of it,
and the place of the next step moves on.  So a row of bytes is written around the 32 steps
from that place on (`Channel.writeBytes_of_not_direct`), and of more bytes than steps the
later ones win (`FillsWave`).  The data register belongs to the selected channel and leaves
the selection alone, so on the generator a row of data bytes is one change of one channel
(`run_dataBytes`).

The place may be anywhere when a row begins, and a program that wants its bytes to begin at
the first step has to rewind: by direct mode without enable, which it then leaves again.

Main result: `writesWaves_run`, for every generator that can be reached.
-/
import PcEngine.Proofs.Checked.Sound
import PcEngine.Proofs.Ring
import PcEngine.Proofs.Sound.Batches
import PcEngine.Proofs.Sound.Independence

namespace PcEngine.Sound

/-! ### One channel -/

/-- What comes of data bytes that are sent to a channel outside direct mode.

* `last` — a step that is hit holds five bits of the last byte that hits it;
* `kept` — the other steps are as they were;
* `index` — the next step is the one behind the last byte;
* `rest` — nothing else has changed. -/
structure FillsWave (before after : Channel) (bytes : List Byte) : Prop where
  last : ∀ i (hi : i < bytes.length), ∀ j (hj : j < waveSize),
    (before.waveIndex + i) % waveSize = j →
    (∀ k, i < k → k < bytes.length → (before.waveIndex + k) % waveSize ≠ j) →
    after.wave[j] = bytes[i] % 32
  kept : ∀ j (hj : j < waveSize),
    (∀ i < bytes.length, (before.waveIndex + i) % waveSize ≠ j) →
    after.wave[j] = before.wave[j]
  index : after.waveIndex = (before.waveIndex + bytes.length) % waveSize
  rest : after = { before with wave := after.wave, waveIndex := after.waveIndex }

/-- As many bytes as steps, from the first step on, are the waveform. -/
theorem FillsWave.wave_eq {before after : Channel} {bytes : List Byte}
    (h : FillsWave before after bytes) (hindex : before.waveIndex = 0)
    (hlength : bytes.length = waveSize) : after.wave.toList = bytes.map (· % 32) := by
  refine List.ext_getElem ?_ fun j hj hj' => ?_
  · rw [Vector.length_toList, List.length_map, hlength]
  · rw [List.length_map] at hj'
    rw [List.getElem_map, Vector.getElem_toList]
    have hsize : j < waveSize := hlength ▸ hj'
    have hhit : (before.waveIndex + j) % waveSize = j := by
      rw [hindex, Nat.zero_add]
      exact Nat.mod_eq_of_lt hsize
    refine h.last j hj' j hsize hhit fun k hjk hk => ?_
    have hne := around_ne_of_length_le (s := before.waveIndex) (Nat.le_of_eq hlength) k hjk hk
    rwa [hhit] at hne

namespace Channel

variable {c : Channel} {value : Byte} {bytes : List Byte}

/-- Send bytes to the data register, one after the other. -/
def writeBytes (c : Channel) (bytes : List Byte) : Channel := bytes.foldl writeData c

theorem writeData_of_not_direct (h : c.direct = false) (value : Byte) :
    c.writeData value = { c with
      wave := c.wave.setIfInBounds c.waveIndex (value % 32)
      waveIndex := (c.waveIndex + 1) % waveSize } := by
  rw [writeData, h, if_neg Bool.false_ne_true]

/-- **Bytes are written around the waveform.** -/
theorem writeBytes_of_not_direct (h : c.direct = false) (hindex : c.waveIndex < waveSize) :
    c.writeBytes bytes = { c with
      wave := writeAround c.wave c.waveIndex (bytes.map (· % 32))
      waveIndex := (c.waveIndex + bytes.length) % waveSize } := by
  induction bytes generalizing c with
  | nil =>
    show c = { c with waveIndex := c.waveIndex % waveSize }
    rw [Nat.mod_eq_of_lt hindex]
  | cons value bytes ih =>
    have hnext : (c.writeData value).waveIndex = (c.waveIndex + 1) % waveSize := by
      rw [writeData_of_not_direct h]
    -- data bytes do not touch control, so the channel stays outside direct mode
    have hdirect : (c.writeData value).direct = false := by
      rw [writeData_of_not_direct h]
      exact h
    have hbound : (c.writeData value).waveIndex < waveSize := by
      rw [hnext]
      exact Nat.mod_lt _ (by decide)
    have hplace : c.waveIndex % waveSize = c.waveIndex := Nat.mod_eq_of_lt hindex
    show (c.writeData value).writeBytes bytes = _
    rw [ih hdirect hbound, hnext, writeAround_mod, Nat.mod_add_mod, List.map_cons, writeAround,
      hplace, List.length_cons, Nat.add_right_comm, Nat.add_assoc, writeData_of_not_direct h]

theorem fillsWave (h : c.direct = false) (hindex : c.waveIndex < waveSize)
    (bytes : List Byte) :
    FillsWave c (c.writeBytes bytes) bytes := by
  rw [writeBytes_of_not_direct h hindex]
  refine ⟨?_, ?_, rfl, rfl⟩
  · intro i hi j hj hhit hlast
    have hlength : i < (bytes.map (· % 32)).length := by rwa [List.length_map]
    refine (getElem_writeAround_of_last hlength hj hhit ?_).trans (List.getElem_map ..)
    rw [List.length_map]
    exact hlast
  · intro j hj hmiss
    refine getElem_writeAround_of_ne hj ?_
    rw [List.length_map]
    exact hmiss

/-- Direct mode without enable rewinds, and leaving it does not move on. -/
theorem waveIndex_rewound {rewind : Byte} (h : rewind &&& 0xC0 = 0x40) (resume : Byte) :
    ((c.writeControl rewind).writeControl resume).waveIndex = 0 := by
  have hrewound : (c.writeControl rewind).waveIndex = 0 := by
    rw [writeControl, if_pos h]
  rw [writeControl]
  split
  · rfl
  · exact hrewound

theorem direct_writeControl (c : Channel) (value : Byte) :
    (c.writeControl value).direct = (value &&& 0x40 != 0) := by
  rw [direct, writeControl]
  split <;> rfl

end Channel

/-! ### The selected channel of the generator -/

namespace Generator

variable {g : Generator} {c : Channel} {bytes : List Byte}

theorem Bounded.step (h : g.Bounded) (op : Op) : (g.step op).2.Bounded := by
  cases op with
  | write register value => exact h.write register value
  | nextSample n => exact h.nextSample n
  | clock n clocks => exact h.clock n clocks
  | reset => exact bounded_powerOn

theorem Bounded.run (h : g.Bounded) (ops : List Op) : (g.run ops).Bounded := by
  induction ops generalizing g with
  | nil => exact h
  | cons op ops ih => exact ih (h.step op)

/-- A channel that exists is selected. -/
theorem Bounded.exists_channel (h : g.Bounded) : ∃ c, g.channel? g.selected = some c :=
  ⟨_, Vector.getElem?_eq_getElem h.selected⟩

/-- Data bytes change the selected channel and nothing else. -/
theorem run_dataBytes (hc : g.channel? g.selected = some c) :
    g.run (bytes.map (.write 6)) = g.modify g.selected fun c => c.writeBytes bytes := by
  induction bytes generalizing g c with
  | nil => exact (g.modify_self g.selected).symm
  | cons value bytes ih =>
    have hlater : (g.modify g.selected fun c => c.writeData value).channel?
        (g.modify g.selected fun c => c.writeData value).selected = some (c.writeData value) := by
      rw [selected_modify]
      exact channel?_modify_self hc _
    show (g.modify g.selected fun c => c.writeData value).run (bytes.map (.write 6)) = _
    rw [ih hlater, selected_modify, modify_modify hc]
    rfl

theorem modify_congr (hc : g.channel? g.selected = some c) (f : Channel → Channel) :
    g.modify g.selected f = g.modify g.selected fun _ => f c := by
  rw [modify_of_some hc, modify_of_some hc]

/-- What writing data bytes does to the waveform of the selected channel.

* `selected` — there is such a channel;
* `fills` — outside direct mode, the bytes fill its waveform from its next step on, and
  nothing else of the generator changes;
* `whole` — after a rewind, 32 bytes are its waveform, whatever was there before. -/
structure WritesWaves (g : Generator) : Prop where
  selected : ∃ c, g.channel? g.selected = some c
  fills : ∀ {c}, g.channel? g.selected = some c → c.direct = false →
    ∀ bytes : List Byte, ∃ after,
      g.run (bytes.map (.write 6)) = (g.modify g.selected fun _ => after) ∧
        FillsWave c after bytes
  whole : ∀ rewind resume : Byte, rewind &&& 0xC0 = 0x40 → resume &&& 0x40 = 0 →
    ∀ bytes : List Byte, bytes.length = waveSize →
      ∃ after, (g.run (.write 4 rewind :: .write 4 resume :: bytes.map (.write 6))).channel?
          g.selected = some after ∧
        after.wave.toList = bytes.map (· % 32)

/-- **Data bytes fill the waveform around and around**, on every generator that can be
reached. -/
theorem writesWaves_run (ops : List Op) : (powerOn.run ops).WritesWaves := by
  have hbounded : (powerOn.run ops).Bounded := bounded_powerOn.run ops
  generalize powerOn.run ops = g at hbounded ⊢
  refine ⟨hbounded.exists_channel, ?_, ?_⟩
  · intro c hc hdirect bytes
    have hindex := (hbounded.channel hc).waveIndex
    refine ⟨c.writeBytes bytes, ?_, c.fillsWave hdirect hindex bytes⟩
    rw [run_dataBytes hc, modify_congr hc]
  · intro rewind resume hrewind hresume bytes hlength
    obtain ⟨c, hc⟩ := hbounded.exists_channel
    -- the channel when the data bytes begin
    have hmid : ((g.write 4 rewind).write 4 resume).channel? g.selected =
        some ((c.writeControl rewind).writeControl resume) := by
      have hfirst : (g.write 4 rewind).channel? g.selected = some (c.writeControl rewind) :=
        channel?_modify_self hc _
      have hselected : (g.write 4 rewind).selected = g.selected := selected_modify ..
      show ((g.write 4 rewind).modify (g.write 4 rewind).selected _).channel? g.selected = _
      rw [hselected]
      exact channel?_modify_self hfirst _
    have hselected : ((g.write 4 rewind).write 4 resume).selected = g.selected :=
      (selected_modify ..).trans (selected_modify ..)
    have hdirect : ((c.writeControl rewind).writeControl resume).direct = false := by
      rw [Channel.direct_writeControl, hresume]
      rfl
    have hindex : ((c.writeControl rewind).writeControl resume).waveIndex = 0 :=
      Channel.waveIndex_rewound hrewind resume
    have hfills := Channel.fillsWave hdirect (hindex ▸ by decide) bytes
    refine ⟨_, ?_, hfills.wave_eq hindex hlength⟩
    show (((g.write 4 rewind).write 4 resume).run (bytes.map (.write 6))).channel? _ = _
    rw [run_dataBytes (hselected ▸ hmid), hselected]
    exact channel?_modify_self hmid _

end Generator

end PcEngine.Sound
