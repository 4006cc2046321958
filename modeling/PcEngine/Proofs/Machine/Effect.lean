/-
PcEngine/Proofs/Machine/Effect.lean

What an operation can do to a machine outside its devices.

Most operations only reach devices and video memory (`DevicesOnly`).  The
others are few, and `Effect` lists them with everything they do:

* a byte write to a flat page replaces one cell (`poke`), after selecting a
  page of ROM if it hits the page register (`select`);
* a word write replaces two cells;
* selecting a bank changes one slot;
* restoring backup RAM and resetting.

Main result: every operation has its effect (`step_effect`).  Invariants of
the memories and of bank switching are then proved by cases on the effect, and
never unfold an operation.
-/
import PcEngine.Machine.Operation

namespace PcEngine.Machine

/-! ### Devices -/

/-- `m'` is `m` with other devices and another video memory.

* `region` — the byte-addressed memories are the same;
* `table`, `slots` — and so is bank switching;
* `threshold`, `territory` — what the settings fix about the timer and the
  joypad connector. -/
structure DevicesOnly (m m' : Machine) : Prop where
  region : m'.store.region = m.store.region
  table : m'.table = m.table
  slots : m'.slots = m.slots
  threshold : m'.timer.threshold = m.timer.threshold
  territory : m'.joypad.territory = m.joypad.territory

variable {m m' : Machine}

theorem DevicesOnly.refl (m : Machine) : DevicesOnly m m := ⟨rfl, rfl, rfl, rfl, rfl⟩

theorem DevicesOnly.raiseVideoIf (h : DevicesOnly m m') (queued : Bool) :
    DevicesOnly m (m'.raiseVideoIf queued) := by
  cases queued with
  | false => exact h
  | true => exact ⟨h.region, h.table, h.slots, h.threshold, h.territory⟩

theorem threshold_writeControl (t : Timer) (value : Byte) :
    (t.writeControl value).threshold = t.threshold := by
  unfold Timer.writeControl
  split <;> rfl

theorem threshold_advance (t : Timer) (n : Nat) :
    (t.advance n).2.threshold = t.threshold := by
  unfold Timer.advance
  split
  · rfl
  · dsimp only
    split <;> rfl

theorem readTarget_devicesOnly (m : Machine) (t : Target) :
    DevicesOnly m (m.readTarget t).2 := by
  unfold readTarget
  split <;> exact ⟨rfl, rfl, rfl, rfl, rfl⟩

theorem readHardware_devicesOnly (m : Machine) (offset : Nat) :
    DevicesOnly m (m.readHardware offset).2 := by
  have h := m.readTarget_devicesOnly (.ofOffset offset)
  exact ⟨h.region, h.table, h.slots, h.threshold, h.territory⟩

theorem writeTarget_devicesOnly (m : Machine) (value : Byte) (t : Target) :
    DevicesOnly m (m.writeTarget value t) := by
  unfold writeTarget
  split
  case h_3 =>
    -- the high data byte of the video controller, which may raise its line
    rcases m.video.writeHigh value m.store.vram with ⟨queued, video, vram⟩
    refine DevicesOnly.raiseVideoIf ?_ queued
    exact ⟨rfl, rfl, rfl, rfl, rfl⟩
  case h_11 => exact ⟨rfl, rfl, rfl, threshold_writeControl _ _, rfl⟩
  all_goals exact ⟨rfl, rfl, rfl, rfl, rfl⟩

theorem writeHardware_devicesOnly (m : Machine) (offset : Nat) (value : Byte) :
    DevicesOnly m (m.writeHardware offset value) := by
  have h := writeTarget_devicesOnly { m with latch := value } value (.ofOffset offset)
  exact ⟨h.region, h.table, h.slots, h.threshold, h.territory⟩

theorem tick_devicesOnly (m : Machine) (cycles : Nat) : DevicesOnly m (m.tick cycles) := by
  unfold tick
  dsimp only
  split <;> exact ⟨rfl, rfl, rfl, threshold_advance _ _, rfl⟩

theorem raiseEvent_devicesOnly (m : Machine) (e : Video.Event) :
    DevicesOnly m (m.raiseEvent e).2 := by
  refine DevicesOnly.raiseVideoIf ?_ _
  exact ⟨rfl, rfl, rfl, rfl, rfl⟩

theorem serviceSprites_devicesOnly (m : Machine) : DevicesOnly m m.serviceSprites.2 := by
  refine DevicesOnly.raiseVideoIf ?_ _
  exact ⟨rfl, rfl, rfl, rfl, rfl⟩

theorem popEvent_devicesOnly (m : Machine) : DevicesOnly m m.popEvent.2 := by
  unfold popEvent
  dsimp only
  split <;> exact ⟨rfl, rfl, rfl, rfl, rfl⟩

/-! ### Effects -/

/-- What an operation does outside the devices.  A byte write is a write to a
device on the hardware page and replaces a cell on a flat page. -/
inductive Effect (m : Machine) : Op → Machine → Prop
  | devices {op m'} (hwrite : ∀ addr value, op ≠ .write addr value) (hreset : op ≠ .reset)
      (h : DevicesOnly m m') : Effect m op m'
  | hardware {addr value m'} (hpage : m.slots.writePage addr = .hardware)
      (h : DevicesOnly m m') : Effect m (.write addr value) m'
  | poke {addr value region base span}
      (hpage : m.slots.writePage addr = .flat region base span)
      (hsel : m.selectsRomPage addr = false) :
      Effect m (.write addr value)
        { m with store := m.store.poke region (base + addr.toNat % span) value }
  | select {addr value region base span}
      (hpage : m.slots.writePage addr = .flat region base span)
      (hsel : m.selectsRomPage addr = true) :
      Effect m (.write addr value)
        { m.selectRomPage (romPageOf addr) with
          store := m.store.poke region (base + addr.toNat % span) value }
  | pokeWord {addr value region cell}
      (hcell : (m.slots.writePage addr).wordCell addr = (region, cell)) :
      Effect m (.writeWord addr value)
        { m with
          store := (m.store.poke region cell (Word.low value)).poke region (cell + 1)
            (Word.high value) }
  | bank {slot bank} : Effect m (.selectBank slot bank) (m.selectBank slot bank)
  | backup {data} : Effect m (.restoreBackup data) (m.restoreBackup data)
  | reset : Effect m .reset m.reset

theorem store_selectRomPage (m : Machine) (page : Nat) :
    (m.selectRomPage page).store = m.store := by
  simp only [selectRomPage]

theorem write_effect (m : Machine) (addr : Word) (value : Byte) :
    Effect m (.write addr value) (m.write addr value) := by
  rcases hpage : m.slots.writePage addr with ⟨region, base, span⟩ | -
  · rcases hsel : m.selectsRomPage addr with - | -
    · simp only [write, hpage, hsel, Bool.false_eq_true, if_false]
      exact .poke hpage hsel
    · simp only [write, hpage, hsel, if_true, store_selectRomPage]
      exact .select hpage hsel
  · simp only [write, hpage]
    exact .hardware hpage (m.writeHardware_devicesOnly _ value)

/-- A byte write leaves the mapping registers alone. -/
theorem banks_write (m : Machine) (addr : Word) (value : Byte) :
    (m.write addr value).slots.banks = m.slots.banks := by
  have heff := m.write_effect addr value
  generalize m.write addr value = m' at heff ⊢
  cases heff with
  | devices hwrite => exact absurd rfl (hwrite addr value)
  | hardware _ hd => rw [hd.slots]
  | poke => rfl
  | select => simp only [selectRomPage, Slots.refresh, Slots.ofBanks]

/-- **Every operation has its effect.** -/
theorem step_effect (m : Machine) (op : Op) : Effect m op (m.step op).2 := by
  cases op with
  | read addr =>
    refine .devices (by simp) (by simp) ?_
    -- reading memory does nothing, reading a device may
    show DevicesOnly m (m.read addr).2
    rcases hpage : m.slots.readPage addr with ⟨region, base, span⟩ | -
    · simp only [read, hpage]
      exact .refl m
    · simp only [read, hpage]
      exact m.readHardware_devicesOnly _
  | write addr value => exact m.write_effect addr value
  | readWord addr => exact .devices (by simp) (by simp) (.refl m)
  | writeWord addr value => exact .pokeWord rfl
  | selectBank slot bank => exact .bank
  | tick cycles => exact .devices (by simp) (by simp) (m.tick_devicesOnly _)
  | reset => exact .reset
  | raiseEvent e => exact .devices (by simp) (by simp) (m.raiseEvent_devicesOnly e)
  | serviceSprites => exact .devices (by simp) (by simp) m.serviceSprites_devicesOnly
  | popEvent => exact .devices (by simp) (by simp) m.popEvent_devicesOnly
  | restoreBackup data => exact .backup
  | nextSample channel | clockSamples channel clocks | setPad n pressed | video op
  | interrupts op => exact .devices (by simp) (by simp) ⟨rfl, rfl, rfl, rfl, rfl⟩

/-! ### Runs -/

@[simp] theorem run_nil (m : Machine) : m.run [] = m := rfl

@[simp] theorem run_cons (m : Machine) (op : Op) (ops : List Op) :
    m.run (op :: ops) = (m.step op).2.run ops := rfl

theorem run_concat (m : Machine) (ops : List Op) (op : Op) :
    m.run (ops ++ [op]) = ((m.run ops).step op).2 :=
  List.foldl_append

end PcEngine.Machine
