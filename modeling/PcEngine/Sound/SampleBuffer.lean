/-
PcEngine/Sound/SampleBuffer.lean

A first-in first-out buffer of 1024 samples, kept as a ring.

* `cells` — the ring;
* `head` — the cell of the next sample to be taken;
* `count` — how many samples are waiting, from `head` on and around the end;
* `last` — the sample taken last, which is played again while none is waiting.

Cells outside the waiting samples hold stale bytes that nothing reads.
`toList` is the waiting samples in the order in which they will be taken.
-/
import PcEngine.Word

namespace PcEngine.Sound

/-- How many samples can wait. -/
def bufferSize : Nat := 1024

/-- The buffer; the fields are described at the head of the file. -/
structure SampleBuffer where
  cells : Vector Byte bufferSize
  head : Nat
  count : Nat
  last : Byte

namespace SampleBuffer

/-- No sample waiting, none taken. -/
def empty : SampleBuffer := ⟨.replicate bufferSize 0, 0, 0, 0⟩

def isEmpty (b : SampleBuffer) : Bool := b.count == 0

/-- The `k`-th waiting sample, if so many are waiting. -/
def get (b : SampleBuffer) (k : Nat) : Byte := b.cells[(b.head + k) % bufferSize]?.getD 0

/-- The waiting samples, next one first. -/
def toList (b : SampleBuffer) : List Byte := (List.range b.count).map b.get

/-- Whether a further sample would be refused. -/
def isFull (b : SampleBuffer) : Bool := b.count == bufferSize

/-- Add a sample, unless the buffer is full; says whether it was added. -/
def push (b : SampleBuffer) (sample : Byte) : Bool × SampleBuffer :=
  if b.isFull then (false, b)
  else
    (true, { b with
      cells := b.cells.setIfInBounds ((b.head + b.count) % bufferSize) sample
      count := b.count + 1 })

/-- Take the next sample if one is waiting; gives the sample taken last. -/
def pop (b : SampleBuffer) : Byte × SampleBuffer :=
  if b.isEmpty then (b.last, b)
  else
    let sample := b.get 0
    (sample, { b with head := (b.head + 1) % bufferSize, count := b.count - 1, last := sample })

/-- Take `n` samples one after the other. -/
def discard (b : SampleBuffer) : Nat → SampleBuffer
  | 0 => b
  | n + 1 => b.pop.2.discard n

end SampleBuffer

end PcEngine.Sound
