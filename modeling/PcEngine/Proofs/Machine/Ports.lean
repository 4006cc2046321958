/-
PcEngine/Proofs/Machine/Ports.lean

Accesses to the hardware page touch the decoded device and nothing else.

Bits 10 to 12 of an address select a device (`Device.ofAddress`), and the lowest
bits one of its registers (`IsPort`).  A byte access there leaves its byte in the
latch.  Apart from that:

* a write changes the selected device only.  The high data byte of the video
  controller is the one register that reaches further: it may write video memory,
  and a transfer that it starts may raise the interrupt line
  (`TouchedByWrite`);
* a read changes nothing, with three exceptions: the status and the high data
  byte of the video controller, and the high data byte of the palette
  (`TouchedByRead`).

Main result: `hardwarePage_touched`, for every machine that can be reached.
-/
import PcEngine.Proofs.Machine.Carries
import PcEngine.Proofs.Video.Pending

namespace PcEngine

/-! ### Devices and their registers -/

/-- A device on the hardware page. -/
inductive Device where
  | video
  | palette
  | sound
  | timer
  | joypad
  | interrupts
  deriving DecidableEq

namespace Device

/-- The device that bits 10 to 12 of an address select; there is none in the last
quarter of the page. -/
def ofAddress (addr : Word) : Option Device :=
  match addr.toNat / 1024 % 8 with
  | 0 => some .video
  | 1 => some .palette
  | 2 => some .sound
  | 3 => some .timer
  | 4 => some .joypad
  | 5 => some .interrupts
  | _ => none

/-- How many registers a device decodes. -/
def registers : Device → Nat
  | .video => 4
  | .palette => 8
  | .sound => 16
  | .timer => 2
  | .joypad => 1
  | .interrupts => 4

/-- A register of a device, as what an offset can select. -/
def target : Device → Nat → Target
  | .video, n => .video n
  | .palette, n => .palette n
  | .sound, n => .sound n
  | .timer, n => .timer n
  | .joypad, _ => .joypad
  | .interrupts, n => .interrupts n

end Device

/-- Whether an address is register `n` of a device, in a slot that shows the
hardware page. -/
def IsPort (d : Device) (n : Nat) (addr : Word) : Prop :=
  Device.ofAddress addr = some d ∧ addr.toNat % d.registers = n

instance (d : Device) (n : Nat) (addr : Word) : Decidable (IsPort d n addr) := by
  unfold IsPort; infer_instance

variable {addr : Word} {d : Device} {n : Nat}

/-- The slot of an address has no part in what its offset selects. -/
theorem offset_div_eq (addr : Word) : addr.toNat % bankSize / 1024 = addr.toNat / 1024 % 8 :=
  Nat.mod_mul_right_div_self addr.toNat 1024 8

theorem offset_mod_eq (addr : Word) (d : Device) :
    addr.toNat % bankSize % d.registers = addr.toNat % d.registers := by
  apply Nat.mod_mod_of_dvd
  cases d <;> decide

theorem ofOffset_of_some (h : Device.ofAddress addr = some d) :
    Target.ofOffset (addr.toNat % bankSize) = d.target (addr.toNat % d.registers) := by
  rw [← offset_mod_eq addr d]
  rw [Device.ofAddress, ← offset_div_eq] at h
  unfold Target.ofOffset
  split at h <;> cases h <;> simp only [*, Device.target, Device.registers]

theorem ofOffset_of_none (h : Device.ofAddress addr = none) :
    Target.ofOffset (addr.toNat % bankSize) = .nothing (addr.toNat % bankSize) := by
  rw [Device.ofAddress, ← offset_div_eq] at h
  unfold Target.ofOffset
  generalize addr.toNat % bankSize / 1024 = k at h ⊢
  rcases k with _ | _ | _ | _ | _ | _ | k
  -- six devices take a kilobyte each, and nothing is behind them
  case succ.succ.succ.succ.succ.succ => rfl
  all_goals cases h

namespace Device

/-- Registers of a device that it decodes are different targets, and so are
registers of different devices. -/
theorem target_inj {d' : Device} {n' : Nat} (h : d.target n = d'.target n')
    (hn : n < d.registers) (hn' : n' < d'.registers) : d = d' ∧ n = n' := by
  cases d <;> cases d' <;> cases h
  case joypad.joypad =>
    -- the only device with a single register
    exact ⟨rfl, (Nat.lt_one_iff.mp hn).trans (Nat.lt_one_iff.mp hn').symm⟩
  all_goals exact ⟨rfl, rfl⟩

theorem registers_pos (d : Device) : 0 < d.registers := by
  cases d <;> decide

end Device

theorem ofAddress_of_ofOffset (h : Target.ofOffset (addr.toNat % bankSize) = d.target n) :
    Device.ofAddress addr = some d := by
  rcases hd : Device.ofAddress addr with - | d'
  · rw [ofOffset_of_none hd] at h
    cases d <;> cases h
  · rw [ofOffset_of_some hd] at h
    cases d <;> cases d' <;> first | rfl | cases h

/-- The registers of a device are the targets of its ports. -/
theorem ofOffset_eq_target_iff (hn : n < d.registers) :
    Target.ofOffset (addr.toNat % bankSize) = d.target n ↔ IsPort d n addr := by
  constructor
  · intro h
    have hd := ofAddress_of_ofOffset h
    rw [ofOffset_of_some hd] at h
    have hlt := Nat.mod_lt addr.toNat d.registers_pos
    exact ⟨hd, (Device.target_inj h hlt hn).2⟩
  · rintro ⟨hd, rfl⟩
    exact ofOffset_of_some hd

namespace Machine

/-! ### What reading and writing a register does -/

/-- What reading a register does, apart from its byte.  Three registers do
something; of these the high data byte of the video controller does so only while
the data register is selected. -/
inductive Reads (m : Machine) : Target → Machine → Prop
  | quiet {t : Target} (hstatus : t ≠ .video 0)
      (hdata : t = .video 3 → m.video.selected ≠ Video.Register.data)
      (hcolour : t ≠ .palette 5) : Reads m t m
  | status : Reads m (.video 0)
      { m with video := { m.video with status := 0 }, interrupts := m.interrupts.clear .video }
  | data (h : m.video.selected = Video.Register.data) : Reads m (.video 3)
      { m with
        video := m.video.setRegister Video.Register.readAddress
          (m.video.register Video.Register.readAddress + m.video.addressStep) }
  | colour : Reads m (.palette 5) { m with palette := m.palette.advance }

/-- What writing a byte to a register does: an operation of the device, or nothing.
The high data byte of the video controller also acts on video memory and on the
controller's line. -/
inductive Writes (m : Machine) (value : Byte) : Target → Machine → Prop
  | idle {t : Target} (h : t ≠ .video 3) : Writes m value t m
  | video {n : Nat} (h : n ≠ 3) (op : Video.Op) :
      Writes m value (.video n) { m with video := (m.video.step op).2 }
  | high : Writes m value (.video 3)
      { m with
        video := (m.video.writeHigh value m.store.vram).2.1
        store := { m.store with vram := (m.video.writeHigh value m.store.vram).2.2 }
        interrupts := if m.video.highQueues then m.interrupts.raise .video else m.interrupts }
  | palette {n : Nat} (op : Video.Palette.Op) :
      Writes m value (.palette n) { m with palette := (m.palette.step op).2 }
  | sound {n : Nat} : Writes m value (.sound n) { m with sound := m.sound.write n value }
  | timer {n : Nat} (op : Timer.Op) :
      Writes m value (.timer n) { m with timer := (m.timer.step op).2 }
  | joypad : Writes m value .joypad { m with joypad := m.joypad.write value }
  | mask : Writes m value (.interrupts 2) { m with interrupts := m.interrupts.setMask value }
  | acknowledge :
      Writes m value (.interrupts 3) { m with interrupts := m.interrupts.clear .timer }

theorem readTarget_reads (m : Machine) (t : Target) : m.Reads t (m.readTarget t).2 := by
  unfold readTarget
  split
  case h_1 => exact .status
  case h_3 =>
    by_cases h : m.video.selected = Video.Register.data
    · simp only [Video.Controller.readHigh, if_pos h]
      exact .data h
    · simp only [Video.Controller.readHigh, if_neg h]
      exact .quiet (by simp) (fun _ => h) (by simp)
  case h_5 => exact .colour
  all_goals exact .quiet (by simp_all) (by simp_all) (by simp_all)

theorem writeTarget_writes (m : Machine) (value : Byte) (t : Target) :
    m.Writes value t (m.writeTarget value t) := by
  unfold writeTarget
  split
  case h_1 => exact .video (by decide) (.select value)
  case h_2 => exact .video (by decide) (.writeLow value)
  case h_3 =>
    have hline : Machine.raiseVideoIf
        { m with
          video := (m.video.writeHigh value m.store.vram).2.1
          store := { m.store with vram := (m.video.writeHigh value m.store.vram).2.2 } }
        m.video.highQueues = { m with
          video := (m.video.writeHigh value m.store.vram).2.1
          store := { m.store with vram := (m.video.writeHigh value m.store.vram).2.2 }
          interrupts := if m.video.highQueues then m.interrupts.raise .video
            else m.interrupts } := by
      cases m.video.highQueues <;> rfl
    simp only [Video.Controller.writeHigh_fst]
    exact hline ▸ .high
  case h_4 => exact .palette (.writeControl value)
  case h_5 => exact .palette (.writeIndexLow value)
  case h_6 => exact .palette (.writeIndexHigh value)
  case h_7 => exact .palette (.writeLow value)
  case h_8 => exact .palette (.writeHigh value)
  case h_9 => exact .sound
  case h_10 => exact .timer (.writeReload value)
  case h_11 => exact .timer (.writeControl value)
  case h_12 => exact .joypad
  case h_13 => exact .mask
  case h_14 => exact .acknowledge
  all_goals exact .idle (by simp_all)

/-! ### What a write leaves alone -/

variable {m m' : Machine} {t : Target} {value : Byte}

/-- `m'` has a device as `m` has it. -/
def Keeps (m m' : Machine) : Device → Prop
  | .video => m'.video = m.video
  | .palette => m'.palette = m.palette
  | .sound => m'.sound = m.sound
  | .timer => m'.timer = m.timer
  | .joypad => m'.joypad = m.joypad
  | .interrupts => m'.interrupts = m.interrupts

namespace Writes

theorem latch_eq (h : m.Writes value t m') : m'.latch = m.latch := by
  cases h <;> rfl

/-- The lines apart, a device changes only if it is written to. -/
theorem keeps (h : m.Writes value t m') (hother : ∀ n, t ≠ d.target n) (hline : d ≠ .interrupts) :
    m.Keeps m' d := by
  cases h with
  | idle => cases d <;> rfl
  | video _ _ | high | palette | sound | timer | joypad | mask | acknowledge =>
    cases d <;> first | rfl | exact absurd rfl hline | exact absurd rfl (hother _) |
      exact absurd rfl (hother 0)

/-- The lines change if the interrupt controller is written to, or at the high data
byte of the video controller. -/
theorem interrupts_eq (h : m.Writes value t m') (hother : ∀ n, t ≠ .interrupts n)
    (hhigh : t ≠ .video 3) : m'.interrupts = m.interrupts := by
  cases h with
  | high => exact absurd rfl hhigh
  | mask | acknowledge => exact absurd rfl (hother _)
  | idle | video | palette | sound | timer | joypad => rfl

theorem interrupts_high (h : m.Writes value (.video 3) m') :
    m'.interrupts = if m.video.highQueues then m.interrupts.raise .video else m.interrupts := by
  cases h with
  | idle h => exact absurd rfl h
  | video h => exact absurd rfl h
  | high => rfl

/-- Video memory changes at the high data byte, of two registers. -/
theorem vram_eq (h : m.Writes value t m')
    (hhigh : t = .video 3 → m.video.selected ≠ Video.Register.data ∧
      m.video.selected ≠ Video.Register.transferLength) : m'.store.vram = m.store.vram := by
  cases h with
  | high =>
    obtain ⟨hdata, hlength⟩ := hhigh rfl
    exact m.video.vram_writeHigh hdata hlength value m.store.vram
  | idle | video | palette | sound | timer | joypad | mask | acknowledge => rfl

end Writes

/-! ### The three reads that do something -/

namespace Reads

theorem quiet_eq (h : m.Reads t m') (hstatus : t ≠ .video 0)
    (hdata : ¬(t = .video 3 ∧ m.video.selected = Video.Register.data))
    (hcolour : t ≠ .palette 5) : m' = m := by
  cases h with
  | quiet => rfl
  | status => exact absurd rfl hstatus
  | data h => exact absurd ⟨rfl, h⟩ hdata
  | colour => exact absurd rfl hcolour

theorem status_eq (h : m.Reads (.video 0) m') :
    m' = { m with
      video := { m.video with status := 0 }, interrupts := m.interrupts.clear .video } := by
  cases h with
  | quiet hstatus => exact absurd rfl hstatus
  | status => rfl

theorem data_eq (h : m.Reads (.video 3) m') (hdata : m.video.selected = Video.Register.data) :
    m' = { m with
      video := m.video.setRegister Video.Register.readAddress
        (m.video.register Video.Register.readAddress + m.video.addressStep) } := by
  cases h with
  | quiet _ h => exact absurd hdata (h rfl)
  | data => rfl

theorem colour_eq (h : m.Reads (.palette 5) m') :
    m' = { m with palette := m.palette.advance } := by
  cases h with
  | quiet _ _ hcolour => exact absurd rfl hcolour
  | colour => rfl

end Reads

theorem advance_index_ne (p : Video.Palette) : p.advance.index ≠ p.index := by
  intro h
  have hnat := congrArg UInt16.toNat h
  simp only [Video.Palette.advance, UInt16.toNat_ofNat', Video.paletteSize] at hnat
  omega

/-! ### Every address of the hardware page -/

/-- What a byte write to the hardware page touches.

* `latch` — the byte is left in the latch;
* `region`, `table`, `slots` — the byte-addressed memories and bank switching stay
  as they are;
* `vram` — video memory can change at the high data byte of the video controller,
  while the data register or the length register is selected;
* `devices` — a device that is not written to stays as it is, the lines apart;
* `line` — so do the lines, except that the high data byte of the video controller
  raises its line if it queues an event;
* `nothing` — where there is no device, nothing but the latch changes. -/
structure TouchedByWrite (m : Machine) (addr : Word) (value : Byte) : Prop where
  latch : (m.write addr value).latch = value
  region : (m.write addr value).store.region = m.store.region
  table : (m.write addr value).table = m.table
  slots : (m.write addr value).slots = m.slots
  vram : ¬(IsPort .video 3 addr ∧ (m.video.selected = Video.Register.data ∨
      m.video.selected = Video.Register.transferLength)) →
    (m.write addr value).store.vram = m.store.vram
  devices : ∀ d, Device.ofAddress addr ≠ some d → d ≠ .interrupts →
    m.Keeps (m.write addr value) d
  line : Device.ofAddress addr ≠ some .interrupts →
    (m.write addr value).interrupts =
      if IsPort .video 3 addr ∧ m.video.highQueues then m.interrupts.raise .video
      else m.interrupts
  nothing : Device.ofAddress addr = none → m.write addr value = { m with latch := value }

/-- What a byte read of the hardware page touches: nothing but the latch, which
keeps the byte read (`quiet`), with three exceptions.

* `status`, `lines` — reading the status of the video controller clears it and
  lowers the controller's line, and that one only;
* `data` — reading the high data byte of the video controller while the data
  register is selected moves the read address on;
* `colour` — reading the high data byte of the palette moves its index on;
* `moves` — neither of the two ever stays where it is. -/
structure TouchedByRead (m : Machine) (addr : Word) : Prop where
  quiet : ¬IsPort .video 0 addr →
    ¬(IsPort .video 3 addr ∧ m.video.selected = Video.Register.data) →
    ¬IsPort .palette 5 addr →
    (m.read addr).2 = { m with latch := (m.read addr).1 }
  status : IsPort .video 0 addr →
    (m.read addr).2 =
      { m with
        video := { m.video with status := 0 }
        interrupts := m.interrupts.clear .video
        latch := (m.read addr).1 }
  lines : IsPort .video 0 addr → ∀ s, (m.read addr).2.interrupts.isRaised s =
    (decide (.video ≠ s) && m.interrupts.isRaised s)
  data : IsPort .video 3 addr → m.video.selected = Video.Register.data →
    (m.read addr).2 =
      { m with
        video := m.video.setRegister Video.Register.readAddress
          (m.video.register Video.Register.readAddress + m.video.addressStep)
        latch := (m.read addr).1 }
  colour : IsPort .palette 5 addr →
    (m.read addr).2 = { m with palette := m.palette.advance, latch := (m.read addr).1 }
  moves : m.video.register Video.Register.readAddress + m.video.addressStep ≠
      m.video.register Video.Register.readAddress ∧
    m.palette.advance.index ≠ m.palette.index

/-- The latch is set first, and the device then finds it. -/
theorem write_of_hardware (hpage : m.slots.writePage addr = .hardware) (value : Byte) :
    m.write addr value = writeTarget { m with latch := value } value
      (.ofOffset (addr.toNat % bankSize)) := by
  simp only [write, hpage, writeHardware]

/-- A write at a port goes to the register. -/
theorem write_of_isPort (hpage : m.slots.writePage addr = .hardware) (hport : IsPort d n addr)
    (value : Byte) :
    m.write addr value = writeTarget { m with latch := value } value (d.target n) := by
  obtain ⟨hdevice, rfl⟩ := hport
  rw [write_of_hardware hpage, ofOffset_of_some hdevice]

/-- A read at a port gives the byte of the register, which is left in the latch. -/
theorem read_of_isPort (hpage : m.slots.readPage addr = .hardware) (hport : IsPort d n addr) :
    m.read addr = ((m.readTarget (d.target n)).1,
      { (m.readTarget (d.target n)).2 with latch := (m.readTarget (d.target n)).1 }) := by
  obtain ⟨hdevice, rfl⟩ := hport
  simp only [read, hpage, readHardware, ofOffset_of_some hdevice]

theorem touchedByWrite (hpage : m.slots.writePage addr = .hardware) (value : Byte) :
    m.TouchedByWrite addr value := by
  have hwrite := write_of_hardware hpage value
  have hwrites := writeTarget_writes { m with latch := value } value
    (.ofOffset (addr.toNat % bankSize))
  have hmemory := m.writeHardware_devicesOnly (addr.toNat % bankSize) value
  rw [writeHardware] at hmemory
  rw [← hwrite] at hwrites hmemory
  refine ⟨hwrites.latch_eq, hmemory.region, hmemory.table, hmemory.slots, ?_, ?_, ?_, ?_⟩
  · intro hport
    refine hwrites.vram_eq fun ht => ?_
    have hhigh : IsPort .video 3 addr := (ofOffset_eq_target_iff (by decide)).mp ht
    exact ⟨fun h => hport ⟨hhigh, .inl h⟩, fun h => hport ⟨hhigh, .inr h⟩⟩
  · intro d hd hline
    exact hwrites.keeps (fun n ht => hd (ofAddress_of_ofOffset ht)) hline
  · intro hd
    by_cases hhigh : IsPort .video 3 addr
    · have ht := (ofOffset_eq_target_iff (n := 3) (by decide)).mpr hhigh
      rw [ht] at hwrites
      rw [hwrites.interrupts_high]
      simp only [hhigh, true_and]
    · rw [if_neg fun h => hhigh h.1]
      refine hwrites.interrupts_eq (fun n ht => ?_) fun ht => ?_
      · exact hd (ofAddress_of_ofOffset (d := .interrupts) ht)
      · exact hhigh ((ofOffset_eq_target_iff (by decide)).mp ht)
  · intro hd
    rw [hwrite, ofOffset_of_none hd]
    rfl

/-- The byte read is left in the latch of what the device has made of the machine. -/
theorem read_of_hardware (hpage : m.slots.readPage addr = .hardware)
    (h : (m.readTarget (.ofOffset (addr.toNat % bankSize))).2 = m') :
    (m.read addr).2 = { m' with latch := (m.read addr).1 } := by
  subst h
  simp only [read, hpage, readHardware]

theorem read_status (hpage : m.slots.readPage addr = .hardware) (hport : IsPort .video 0 addr) :
    (m.read addr).2 =
      { m with
        video := { m.video with status := 0 }
        interrupts := m.interrupts.clear .video
        latch := (m.read addr).1 } := by
  have ht := (ofOffset_eq_target_iff (by decide)).mpr hport
  have hreads := m.readTarget_reads (.ofOffset (addr.toNat % bankSize))
  exact read_of_hardware hpage (Reads.status_eq (ht ▸ hreads))

theorem touchedByRead (hpage : m.slots.readPage addr = .hardware) : m.TouchedByRead addr := by
  have hreads := m.readTarget_reads (.ofOffset (addr.toNat % bankSize))
  refine ⟨?_, read_status hpage, ?_, ?_, ?_, ?_, advance_index_ne m.palette⟩
  · intro hstatus hdata hcolour
    refine read_of_hardware hpage (hreads.quiet_eq (fun ht => ?_) (fun h => ?_) fun ht => ?_)
    · exact hstatus ((ofOffset_eq_target_iff (by decide)).mp ht)
    · exact hdata ⟨(ofOffset_eq_target_iff (by decide)).mp h.1, h.2⟩
    · exact hcolour ((ofOffset_eq_target_iff (by decide)).mp ht)
  · intro hport s
    rw [read_status hpage hport]
    exact m.interrupts.isRaised_clear .video s
  · intro hport hdata
    have ht := (ofOffset_eq_target_iff (by decide)).mpr hport
    exact read_of_hardware hpage (Reads.data_eq (ht ▸ hreads) hdata)
  · intro hport
    have ht := (ofOffset_eq_target_iff (by decide)).mpr hport
    exact read_of_hardware hpage (Reads.colour_eq (ht ▸ hreads))
  · intro h
    exact m.video.addressStep_ne_zero (by simpa using h)

/-- A slot that shows the number of the hardware page shows it to reads and to writes. -/
theorem Reachable.pages_of_bankAt (h : m.Reachable) (hbank : m.slots.bankAt addr = 0xFF) :
    m.slots.writePage addr = .hardware ∧ m.slots.readPage addr = .hardware := by
  obtain ⟨rom, card, settings, sel, hm⟩ := h.carries
  have hread := (hm.readPage_eq_hardware_iff addr).mpr hbank
  exact ⟨(hm.hardware_iff addr).mpr hread, hread⟩

/-- **An access to the hardware page touches the decoded device only**, on every
machine that can be reached. -/
theorem hardwarePage_touched (h : m.Reachable) (hpage : m.slots.readPage addr = .hardware) :
    (∀ value, m.TouchedByWrite addr value) ∧ m.TouchedByRead addr := by
  obtain ⟨rom, card, settings, sel, hm⟩ := h.carries
  exact ⟨touchedByWrite ((hm.hardware_iff addr).mpr hpage), touchedByRead hpage⟩

/-- Selecting the data register, and then the high data byte. -/
theorem hardwarePage_touched_dataRegister :
    let start := boot largeImage largeCard .standard
    let m := start.run [.write 0x0000 0x02]
    (start.Reachable ∧ start.slots.readPage 0x0000 = .hardware ∧
      (∀ value, start.TouchedByWrite 0x0000 value) ∧ start.TouchedByRead 0x0000) ∧
    m.Reachable ∧ m.slots.readPage 0x0003 = .hardware ∧
      (∀ value, m.TouchedByWrite 0x0003 value) ∧ m.TouchedByRead 0x0003 := by
  intro start m
  have hstart := carries_of_powerOn powerOn_largeCard []
  have hm := carries_of_powerOn powerOn_largeCard [.write 0x0000 0x02]
  -- a byte write leaves the mapping registers alone
  have hbank : m.slots.bankAt 0x0003 = 0xFF := by
    show (start.write 0x0000 0x02).slots.banks[_] = 0xFF
    simp only [banks_write]
    rfl
  have hreach : start.Reachable := reachable_run .standard validate_largeCard []
  have hreach' : m.Reachable := reachable_run .standard validate_largeCard _
  have hpage := (hstart.readPage_eq_hardware_iff 0x0000).mpr rfl
  have hpage' := (hm.readPage_eq_hardware_iff 0x0003).mpr hbank
  exact ⟨⟨hreach, hpage, hardwarePage_touched hreach hpage⟩, hreach', hpage',
    hardwarePage_touched hreach' hpage'⟩

end Machine

end PcEngine
