import PcEngine.AddressSpace
import PcEngine.Json.Grammar
import PcEngine.Log.Journal
import PcEngine.Session
import PcEngine.Settings.File
import PcEngine.Settings.Logging
import PcEngine.Proofs.Bank.Extent
import PcEngine.Proofs.Bank.Repeat
import PcEngine.Proofs.Machine.Carries
import PcEngine.Proofs.Machine.Extent
import PcEngine.Proofs.Machine.Reset
import PcEngine.Proofs.Machine.Sides
import PcEngine.Proofs.History
import PcEngine.Proofs.Machine.Words
import PcEngine.Proofs.Machine.VideoLine
import PcEngine.Proofs.Sound.SampleBuffer
import PcEngine.Proofs.Sound.Stream
import PcEngine.Proofs.Machine.PageRegister
import PcEngine.Proofs.Machine.Cells
import PcEngine.Proofs.Machine.Ports
import PcEngine.Proofs.Timer
import PcEngine.Proofs.Machine.TimerLine
import PcEngine.Proofs.Checked.Basic
import PcEngine.Proofs.Checked.Video
import PcEngine.Proofs.Checked.Palette
import PcEngine.Proofs.Checked.Sound
import PcEngine.Proofs.Checked.Devices
import PcEngine.Proofs.Checked.Banks
import PcEngine.Proofs.Checked.Bounded
import PcEngine.Proofs.Checked.Machine
import PcEngine.Proofs.Machine.WordCells
import PcEngine.Proofs.Session.Outcome
import PcEngine.Proofs.Log.Record
import PcEngine.Proofs.Session.History
import PcEngine.Proofs.Log.Conservation
import PcEngine.Proofs.Log.Summaries
import PcEngine.Proofs.Log.FixedLimit
import PcEngine.Proofs.Sound.Independence
import PcEngine.Proofs.Machine.Latch
import PcEngine.Proofs.Machine.Backup
import PcEngine.Proofs.Video.Transfer
import PcEngine.Proofs.Timer.Cycles
import PcEngine.Proofs.Sound.Batches
import PcEngine.Proofs.Sound.Rate
import PcEngine.Proofs.Machine.VideoMemory
import PcEngine.Proofs.Machine.PalettePorts
import PcEngine.Proofs.Machine.TrapArea
import PcEngine.Proofs.Session.Mount
import PcEngine.Proofs.Video.SpriteTable
import PcEngine.Proofs.Video.EventStack
import PcEngine.Proofs.Video.StatusLatch
import PcEngine.Proofs.Json.Tokens
import PcEngine.Proofs.Settings.Members
import PcEngine.Proofs.Settings.RoundTrip
import PcEngine.Proofs.Ring
import PcEngine.Proofs.Sound.Waveform
import PcEngine.Proofs.Joypad
import PcEngine.Proofs.Json.Skip
import PcEngine.Proofs.Settings.Overlay
