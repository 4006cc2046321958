/-
PcEngine/Notice.lean

What the machine reports while it runs.

A notice is a value that says what happened; its category, its level and its
wording are functions of it.  Operations of the machine compute notices beside
the new state and never look at a log, so whether anything is listening cannot
change what the machine does, and a notice that nobody listens to is never put
into words.
-/
import PcEngine.Interrupt.Source
import PcEngine.Log.Level
import PcEngine.Text.Hex
import PcEngine.Word

namespace PcEngine

open Log (Category Level)

/-- Something worth reporting. -/
inductive Notice where
  /-- A card was bound to the bus. -/
  | cardBound (romBanks extraBanks : Nat) (pageRegister : Bool)
  /-- An image was accepted for mounting. -/
  | mounting (kib : Nat)
  /-- A slot was made to show a bank. -/
  | bankSelected (slot : Nat) (bank : Byte)
  /-- The page register of a large card was written. -/
  | romPageSelected (page : Nat) (value : Byte)
  /-- A transfer into sprite memory was asked for. -/
  | spriteTransferScheduled (source : Word)
  /-- A transfer within video memory starts. -/
  | vramTransfer (source target : Word) (words : Nat)
  | paletteControl (value : Byte)
  /-- A sound channel that does not exist was selected. -/
  | channelSelectIgnored (channel : Nat)
  | soundRegisterUnused (register : Nat) (value : Byte)
  /-- A sample arrived at a full buffer. -/
  | sampleDropped
  | timerStarted (reload : Byte)
  | interruptRaised (source : Interrupt.Source)
  | joypadWritten (value : Byte) (pad : Nat)
  | unconnectedRead (offset : Nat)
  | unconnectedWrite (offset : Nat) (value : Byte)

namespace Notice

/-- The part of the machine that a notice is about. -/
def category : Notice → Category
  | cardBound .. | mounting .. => .bus
  | bankSelected .. | romPageSelected .. => .mapper
  | spriteTransferScheduled .. | vramTransfer .. | paletteControl .. => .video
  | channelSelectIgnored .. | soundRegisterUnused .. | sampleDropped => .audio
  | timerStarted .. => .timer
  | interruptRaised .. => .interrupts
  | joypadWritten .. => .input
  | unconnectedRead .. | unconnectedWrite .. => .stubs

/-- How detailed a notice is. -/
def level : Notice → Level
  | cardBound .. | mounting .. => .info
  | romPageSelected .. | vramTransfer .. | channelSelectIgnored .. | soundRegisterUnused ..
  | timerStarted .. | unconnectedRead .. | unconnectedWrite .. => .debug
  | bankSelected .. | spriteTransferScheduled .. | paletteControl .. | sampleDropped
  | interruptRaised .. | joypadWritten .. => .trace

/-- The wording. -/
def text : Notice → String
  | cardBound romBanks extraBanks pageRegister =>
    "Cartridge bound: " ++ toString romBanks ++ " ROM banks, " ++ toString extraBanks ++
      " RAM banks" ++ if pageRegister then ", SF2 mapper" else ""
  | mounting kib => "Mounting HuCard (" ++ toString kib ++ " KiB)"
  | bankSelected slot bank => "MMR[" ++ toString slot ++ "] = " ++ hex 2 bank.toNat
  | romPageSelected page value =>
    "SF2 page " ++ toString page ++ " selected (write " ++ hex 2 value.toNat ++ ")"
  | spriteTransferScheduled source => "SATB DMA scheduled from " ++ hex 4 source.toNat
  | vramTransfer source target words =>
    "VRAM DMA " ++ hex 4 source.toNat ++ " -> " ++ hex 4 target.toNat ++ ", " ++
      toString words ++ " words"
  | paletteControl value => "VCE control = " ++ hex 2 value.toNat
  | channelSelectIgnored channel => "Ignoring PSG channel select " ++ toString channel
  | soundRegisterUnused register value =>
    "Write to unused PSG port " ++ hex 1 register ++ " = " ++ hex 2 value.toNat
  | sampleDropped => "DDA buffer full, sample dropped"
  | timerStarted reload => "Timer started, reload " ++ hex 2 reload.toNat
  | interruptRaised source => "IRQ raised: " ++ source.name
  | joypadWritten value pad =>
    "Joypad write " ++ hex 2 value.toNat ++ ", pad " ++ toString pad
  | unconnectedRead offset => "Read from unimplemented port " ++ hex 4 offset
  | unconnectedWrite offset value =>
    "Write to unimplemented port " ++ hex 4 offset ++ " = " ++ hex 2 value.toNat

end Notice

end PcEngine
