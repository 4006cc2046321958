/-
PcEngine/Sound/Generator.lean

The sound generator: six channels behind one window of sixteen registers.

    0  channel select        5  balance of the channel
    1  balance of the mix    6  waveform or sample data
    2  frequency, low        7  noise, channels 4 and 5 only
    3  frequency, high       8  low-frequency oscillator, frequency
    4  control               9  low-frequency oscillator, control

Registers 2 to 7 belong to the selected channel.  Selecting channel 6 or 7,
which do not exist, changes nothing.
-/
import PcEngine.Answer
import PcEngine.Sound.Channel

namespace PcEngine.Sound

def channelCount : Nat := 6

/-- The first channel that can make noise. -/
def firstNoiseChannel : Nat := 4

/-- The sound generator.

* `selected` — the channel that registers 2 to 7 belong to;
* `balance` — the balance of the mix;
* `lfoFrequency`, `lfoControl` — the low-frequency oscillator. -/
structure Generator where
  selected : Nat
  balance : Byte
  lfoFrequency : Byte
  lfoControl : Byte
  channels : Vector Channel channelCount

/-- What can be done to the generator: a register write, or taking samples
from a channel. -/
inductive Op where
  | write (register : Nat) (value : Byte)
  | nextSample (channel : Nat)
  | clock (channel clocks : Nat)
  | reset

namespace Generator

def powerOn : Generator := ⟨0, 0, 0, 0, .replicate channelCount .powerOn⟩

/-- Channel `n`, if it exists. -/
def channel? (g : Generator) (n : Nat) : Option Channel := g.channels[n]?

/-- Change channel `n`; nothing happens if it does not exist. -/
def modify (g : Generator) (n : Nat) (f : Channel → Channel) : Generator :=
  match g.channel? n with
  | some c => { g with channels := g.channels.setIfInBounds n (f c) }
  | none => g

/-! ### Registers -/

/-- The channel that a select value means; there are six. -/
def selection? (value : Byte) : Option Nat :=
  if value.toNat % 8 < channelCount then some (value.toNat % 8) else none

/-- Write a register; numbers are taken modulo sixteen, and registers from 10
on do nothing. -/
def write (g : Generator) (register : Nat) (value : Byte) : Generator :=
  match register % 16 with
  | 0 => { g with selected := (selection? value).getD g.selected }
  | 1 => { g with balance := value }
  | 2 => g.modify g.selected (·.writeFrequencyLow value)
  | 3 => g.modify g.selected (·.writeFrequencyHigh value)
  | 4 => g.modify g.selected (·.writeControl value)
  | 5 => g.modify g.selected fun c => { c with balance := value }
  | 6 => g.modify g.selected (·.writeData value)
  | 7 =>
    if firstNoiseChannel ≤ g.selected then
      g.modify g.selected fun c => { c with noise := value }
    else g
  | 8 => { g with lfoFrequency := value }
  | 9 => { g with lfoControl := value }
  | _ => g

/-- What writing a register reports. -/
def writeNotices (g : Generator) (register : Nat) (value : Byte) : List Notice :=
  match register % 16 with
  | 0 =>
    match selection? value with
    | some _ => []
    | none => [.channelSelectIgnored (value.toNat % 8)]
  | 1 | 2 | 3 | 4 | 5 | 7 | 8 | 9 => []
  | 6 =>
    match g.channel? g.selected with
    | some c => c.dataNotices
    | none => []
  | n => [.soundRegisterUnused n value]

/-! ### Playing samples -/

/-- Take one sample from a channel; zero from a channel that does not
exist. -/
def nextSample (g : Generator) (n : Nat) : Byte × Generator :=
  match g.channel? n with
  | some c => (c.nextSample.1, g.modify n fun c => c.nextSample.2)
  | none => (0, g)

/-- Let clocks pass on a channel; zero from a channel that does not exist. -/
def clock (g : Generator) (n clocks : Nat) : Byte × Generator :=
  match g.channel? n with
  | some c => ((c.clock clocks).1, g.modify n fun c => (c.clock clocks).2)
  | none => (0, g)

/-! ### Operations -/

/-- Carry out an operation. -/
def step (g : Generator) : Op → Answer × Generator
  | .write register value => (.done, g.write register value)
  | .nextSample n =>
    let (sample, g) := g.nextSample n
    (.byte sample, g)
  | .clock n clocks =>
    let (sample, g) := g.clock n clocks
    (.byte sample, g)
  | .reset => (.done, powerOn)

/-- Carry out operations one after the other. -/
def run (g : Generator) (ops : List Op) : Generator := ops.foldl (fun g op => (g.step op).2) g

/-- What an operation reports. -/
def notices (g : Generator) : Op → List Notice
  | .write register value => g.writeNotices register value
  | _ => []

end Generator

end PcEngine.Sound
