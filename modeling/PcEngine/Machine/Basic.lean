/-
PcEngine/Machine/Basic.lean

The machine: memories, bank switching and devices, as one value.

* `store` — every memory;
* `table`, `slots` — what bank numbers point to, and what the slots show;
* `video`, `palette`, `sound`, `timer`, `interrupts`, `joypad` — the devices;
* `latch` — the byte last seen on the hardware page, which undriven bits of a
  read take up again.

A machine exists only with a card whose image has been found right
(`Machine.powerOn`).  `Machine.reset` takes an existing one back to power-on
piece by piece; backup RAM and the state of the pads outlive it.
-/
import PcEngine.Bank.Slots
import PcEngine.Card
import PcEngine.Interrupt.Lines
import PcEngine.Joypad
import PcEngine.Settings.Basic
import PcEngine.Sound.Generator
import PcEngine.Store.Basic
import PcEngine.Timer
import PcEngine.Video.Controller
import PcEngine.Video.Palette

namespace PcEngine

/-- The machine; the fields are described at the head of the file. -/
structure Machine where
  store : Store
  table : Table
  slots : Slots
  video : Video.Controller
  palette : Video.Palette
  sound : Sound.Generator
  timer : Timer
  interrupts : Interrupt.Lines
  joypad : Joypad
  latch : Byte

namespace Machine

/-- What the bank table is built from. -/
def layoutOf (card : Card) (settings : Settings) : Layout where
  romBanks := card.romBanks
  extraBanks := card.extraBanks
  repeatRom := settings.repeatRom

/-- The machine at power-on, with a card whose image is right. -/
def boot (rom : Array Byte) (card : Card) (settings : Settings) : Machine :=
  let table := Table.ofLayout (layoutOf card settings)
  { store := .ofRom rom card.extraBanks
    table := table
    slots := .powerOn table
    video := .powerOn
    palette := .powerOn
    sound := .powerOn
    timer := .powerOn settings.threshold.toNat
    interrupts := .powerOn
    joypad := .powerOn settings.territory
    latch := 0 }

/-- Bind a card and switch on. -/
def powerOn (rom : Array Byte) (card : Card) (settings : Settings) : Except Error Machine := do
  card.validate rom
  .ok (boot rom card settings)

/-- Back to power-on.  Backup RAM and the state of the pads stay. -/
def reset (m : Machine) : Machine :=
  let table := Table.ofLayout m.table.layout
  { store := m.store.clearVolatile
    table := table
    slots := .powerOn table
    video := .powerOn
    palette := .powerOn
    sound := .powerOn
    timer := m.timer.reset
    interrupts := .powerOn
    joypad := m.joypad.reset
    latch := 0 }

/-- Looking up the power-on banks and binding the card are reported. -/
def bootNotices (card : Card) (settings : Settings) : List Notice :=
  Slots.lookUpNotices Slots.powerOnBanks ++
    [.cardBound card.romBanks card.extraBanks
      (Table.ofLayout (layoutOf card settings)).hasPageRegister]

/-- What switching on reports: nothing if the card is refused. -/
def powerOnNotices (rom : Array Byte) (card : Card) (settings : Settings) : List Notice :=
  match card.validate rom with
  | .ok _ => bootNotices card settings
  | .error _ => []

/-- What a reset reports. -/
def resetNotices : List Notice := Slots.lookUpNotices Slots.powerOnBanks

end Machine

end PcEngine
