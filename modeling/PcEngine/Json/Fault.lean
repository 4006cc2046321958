/-
PcEngine/Json/Fault.lean

What can be wrong with a JSON text, and the shape of everything that reads
one.

A text is read from the left, and the first fault that shows is the one that
is reported.
-/

namespace PcEngine.Json

/-- Why a text could not be read.

* `malformed` — a character that cannot stand where it stands;
* `truncated` — the text ends too early;
* `unfit` — JSON so far, but not a value of the wanted type. -/
inductive Fault where
  | malformed
  | truncated
  | unfit
  deriving DecidableEq

/-- Reads something from the front of a text and gives back the rest. -/
abbrev Reader (α : Type) := List Char → Except Fault (α × List Char)

/-! ### Characters -/

/-- The four characters that may stand between tokens. -/
def isBlank (c : Char) : Bool := c = ' ' || c = '\n' || c = '\t' || c = '\r'

/-- The text from the next token on. -/
def skipBlanks (cs : List Char) : List Char := cs.dropWhile isBlank

/-- Characters that must be escaped inside a string. -/
def isControl (c : Char) : Bool := c.toNat < 0x20

/-- Read a fixed run of characters. -/
def expect : List Char → List Char → Except Fault (List Char)
  | [], cs => .ok cs
  | _ :: _, [] => .error .truncated
  | w :: ws, c :: cs => if c = w then expect ws cs else .error .malformed

end PcEngine.Json
