/-
PcEngine/Sound/Channel.lean

One channel of the sound generator.

A channel plays a waveform of 32 five-bit steps, or, in direct mode, samples
that the processor sends one by one.  Both arrive through the same data
register: in direct mode a byte joins the sample buffer, otherwise it becomes
the next step of the waveform, which is written around and around.

* `frequency` — twelve bits, the divisor of the tone;
* `control` — bit 7 enables the channel, bit 6 selects direct mode, bits 0-4
  are the volume;
* `balance` — left volume and right volume, four bits each;
* `noise` — bit 7 enables noise, bits 0-4 are its frequency;
* `wave`, `waveIndex` — the waveform, and the step to be written next;
* `samples` — the samples waiting to be played in direct mode;
* `phase` — the clocks that have passed since a sample was last due.
-/
import PcEngine.Notice
import PcEngine.Sound.SampleBuffer

namespace PcEngine.Sound

/-- Steps of a waveform. -/
def waveSize : Nat := 32

/-- Clocks of the sound generator in a second: a sixth of the console's
21.47727 MHz. -/
def clockRate : Nat := 3579545

/-- A channel; the fields are described at the head of the file. -/
structure Channel where
  frequency : Word
  control : Byte
  balance : Byte
  noise : Byte
  wave : Vector Byte waveSize
  waveIndex : Nat
  samples : SampleBuffer
  phase : Nat

namespace Channel

/-- All registers zero, nothing waiting. -/
def powerOn : Channel := ⟨0, 0, 0, 0, .replicate waveSize 0, 0, .empty, 0⟩

/-! ### Registers -/

def enabled (c : Channel) : Bool := c.control &&& 0x80 != 0

/-- Whether the channel plays samples instead of its waveform. -/
def direct (c : Channel) : Bool := c.control &&& 0x40 != 0

def volume (c : Channel) : Byte := c.control % 32

def leftVolume (c : Channel) : Byte := c.balance / 16

def rightVolume (c : Channel) : Byte := c.balance % 16

def noiseEnabled (c : Channel) : Bool := c.noise &&& 0x80 != 0

def noiseFrequency (c : Channel) : Byte := c.noise % 32

/-- Frequency of the tone in hertz; a divisor of zero counts as 4096. -/
def toneHertz (c : Channel) : Float :=
  let divisor := if c.frequency = 0 then 4096 else c.frequency.toNat
  clockRate.toFloat / (32 * divisor.toFloat)

def writeFrequencyLow (c : Channel) (value : Byte) : Channel :=
  { c with frequency := Word.setLow c.frequency value }

/-- Of the high byte of the frequency only four bits count. -/
def writeFrequencyHigh (c : Channel) (value : Byte) : Channel :=
  { c with frequency := Word.setHigh c.frequency (value % 16) }

/-- Set control; direct mode without enable rewinds the waveform. -/
def writeControl (c : Channel) (value : Byte) : Channel :=
  if value &&& 0xC0 = 0x40 then { c with control := value, waveIndex := 0 }
  else { c with control := value }

/-- Whether a data byte would be lost: direct mode, and no room for a
sample. -/
def dropsSample (c : Channel) : Bool := c.direct && c.samples.isFull

/-- Send a byte to the sample buffer or to the waveform. -/
def writeData (c : Channel) (value : Byte) : Channel :=
  if c.direct then { c with samples := (c.samples.push value).2 }
  else
    { c with
      wave := c.wave.setIfInBounds c.waveIndex (value % 32)
      waveIndex := (c.waveIndex + 1) % waveSize }

/-- A sample that finds no room is reported. -/
def dataNotices (c : Channel) : List Notice :=
  if c.dropsSample then [.sampleDropped] else []

/-! ### Playing samples -/

/-- Take one sample; gives the sample to be played. -/
def nextSample (c : Channel) : Byte × Channel :=
  let (sample, samples) := c.samples.pop
  (sample, { c with samples := samples })

/-- Clocks between two samples, at least one. -/
def period (c : Channel) : Nat := max c.frequency.toNat 1

/-- Let clocks pass, taking a sample at the end of every period; gives the
sample to be played. -/
def clock (c : Channel) (clocks : Nat) : Byte × Channel :=
  let total := c.phase + clocks
  let due := total / c.period
  let samples := c.samples.discard (min due c.samples.count)
  (samples.last, { c with phase := total % c.period, samples := samples })

end Channel

end PcEngine.Sound
