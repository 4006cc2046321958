/-
PcEngine/AddressSpace.lean

What a processor drives: a 64 KiB logical space of bytes, seen one access at
a time.

An access returns the space after it, because a device may change when it is
read: a status latch clears, an address register steps.  Whoever has byte
accesses has word accesses too: a word is two byte accesses, low byte first,
and the second address wraps from `$FFFF` to `$0000`
(`readWordByBytes`, `writeWordByBytes`).  A space may offer faster word
accesses of its own; where these agree with the byte-wise ones is then a fact
about that space, and not part of the interface.
-/
import PcEngine.Word

namespace PcEngine

variable {σ : Type}

/-! ### Words by way of bytes -/

/-- Read a word as two byte reads, low byte first. -/
def readWordByBytes (read : σ → Word → Byte × σ) (space : σ) (addr : Word) : Word × σ :=
  let (lo, space) := read space addr
  let (hi, space) := read space (addr + 1)
  (Word.ofBytes lo hi, space)

/-- Write a word as two byte writes, low byte first. -/
def writeWordByBytes (write : σ → Word → Byte → σ) (space : σ) (addr value : Word) : σ :=
  write (write space addr (Word.low value)) (addr + 1) (Word.high value)

/-! ### The interface -/

/-- A logical address space of bytes.

* `read`, `write` — one byte;
* `readWord`, `writeWord` — a little-endian word, byte by byte unless the
  space says otherwise. -/
class AddressSpace (σ : Type) where
  read : σ → Word → Byte × σ
  write : σ → Word → Byte → σ
  readWord : σ → Word → Word × σ := readWordByBytes read
  writeWord : σ → Word → Word → σ := writeWordByBytes write

end PcEngine
