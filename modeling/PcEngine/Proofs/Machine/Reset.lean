/-
PcEngine/Proofs/Machine/Reset.lean

A reset is power-on again.

`Machine.boot` builds a machine from a card, `Machine.reset` takes an existing
one back piece by piece.  The two meet on every field, because no operation
changes what a machine was built from: the image, the sizes of its regions, the
layout of the bank table, the threshold of the timer and the territory
(`Carries`).  Backup RAM and the pads outlive a reset and are the only
exceptions (`reset_run`).
-/
import PcEngine.Proofs.Machine.Carries

namespace PcEngine.Machine

variable {m start : Machine} {rom : Array Byte} {card : Card} {settings : Settings}
variable {sel : Option Nat}

namespace Carries

/-! ### One piece at a time -/

theorem clearVolatile_eq (h : m.Carries rom card settings sel) :
    m.store.clearVolatile =
      { Store.ofRom rom card.extraBanks with backupRam := m.store.backupRam } := by
  -- clearing keeps the sizes, and these are still those of power-on
  have hram : m.store.ram.size = ramSize := h.size .ram
  have hextra : m.store.extraRam.size = card.extraBanks * bankSize := h.size .extraRam
  have hsink : m.store.sink.size = sinkSize := h.size .sink
  simp only [Store.clearVolatile, Store.ofRom, h.rom, hram, hextra, hsink]

theorem timer_reset_eq (h : m.Carries rom card settings sel) :
    m.timer.reset = .powerOn settings.threshold.toNat := by
  simp only [Timer.reset, Timer.powerOn, h.threshold, Nat.max_assoc, Nat.max_self]

theorem joypad_reset_eq (h : m.Carries rom card settings sel) :
    m.joypad.reset = { Joypad.powerOn settings.territory with pads := m.joypad.pads } := by
  simp only [Joypad.reset, Joypad.powerOn, h.territory]

/-- A reset builds what power-on builds, but keeps backup RAM and the pads. -/
theorem reset_eq (h : m.Carries rom card settings sel) :
    m.reset = { boot rom card settings with
      store := { (boot rom card settings).store with backupRam := m.store.backupRam }
      joypad := { (boot rom card settings).joypad with pads := m.joypad.pads } } := by
  simp only [Machine.reset, boot, h.clearVolatile_eq, h.layout_eq, h.timer_reset_eq,
    h.joypad_reset_eq]

end Carries

/-! ### After any run -/

/-- **A reset after any run gives the machine at power-on**, with the backup RAM
and the pads of the moment.  No run changes the image, the layout, the
threshold or the territory, and no selection of a page of ROM survives. -/
theorem reset_run (h : powerOn rom card settings = .ok start) (ops : List Op) :
    let m := start.run ops
    m.reset = { start with
        store := { start.store with backupRam := m.store.backupRam }
        joypad := { start.joypad with pads := m.joypad.pads } } ∧
      m.store.backupRam.size = backupRamSize ∧
      m.store.rom = rom ∧
      m.table.layout = layoutOf card settings ∧
      m.timer.threshold = max settings.threshold.toNat 1 ∧
      m.joypad.territory = settings.territory ∧
      ∀ number, m.reset.table.readPage number =
        (layoutOf card settings).readPage number.toNat := by
  intro m
  have hm : m.Carries rom card settings _ := carries_of_powerOn h ops
  obtain ⟨-, rfl⟩ := powerOn_eq_ok_iff.mp h
  refine ⟨hm.reset_eq, hm.size .backupRam, hm.rom, hm.layout_eq, hm.threshold, hm.territory, ?_⟩
  intro number
  -- no page is selected on a machine that has been reset
  rw [hm.reset.table]
  exact Table.readPage_ofLayout _ number

/-- After bytes in backup RAM, a pad and a page of ROM. -/
theorem reset_run_largeCard :
    let start := boot largeImage largeCard .standard
    let ops := .restoreBackup #[1, 2, 3] :: .setPad 0 0xFF :: selectOverRam
    let m := start.run ops
    powerOn largeImage largeCard .standard = .ok start ∧
      m.reset = { start with
        store := { start.store with backupRam := m.store.backupRam }
        joypad := { start.joypad with pads := m.joypad.pads } } ∧
      m.store.backupRam.size = backupRamSize ∧
      m.store.rom = largeImage ∧
      m.table.layout = layoutOf largeCard .standard ∧
      m.timer.threshold = max Settings.standard.threshold.toNat 1 ∧
      m.joypad.territory = Settings.standard.territory ∧
      ∀ number, m.reset.table.readPage number =
        (layoutOf largeCard .standard).readPage number.toNat := by
  intro start ops m
  exact ⟨powerOn_largeCard, reset_run powerOn_largeCard ops⟩

end PcEngine.Machine
