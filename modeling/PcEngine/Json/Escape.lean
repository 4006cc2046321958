/-
PcEngine/Json/Escape.lean

Strings with escapes.

`readString` reads from behind the opening quote and gives the characters that
the string stands for.  A character outside the basic plane may be escaped as
two halves, which must follow each other; half of a pair alone is malformed.
-/
import PcEngine.Json.Fault

namespace PcEngine.Json

/-! ### Escapes -/

/-- The character that a one-letter escape stands for. -/
def escaped? (c : Char) : Option Char :=
  match c with
  | '"' | '\\' | '/' => some c
  | 'b' => some '\x08'
  | 'f' => some '\x0c'
  | 'n' => some '\n'
  | 'r' => some '\r'
  | 't' => some '\t'
  | _ => none

/-- The value of a hexadecimal digit. -/
def hexValue? (c : Char) : Option Nat :=
  if '0' ≤ c ∧ c ≤ '9' then some (c.toNat - 48)
  else if 'a' ≤ c ∧ c ≤ 'f' then some (c.toNat - 87)
  else if 'A' ≤ c ∧ c ≤ 'F' then some (c.toNat - 55)
  else none

/-- Whether the text goes on for at least four bytes of UTF-8, the room that
the digits of a numeric escape need.  A text with less room is truncated,
whatever is in it. -/
def hasFourBytes (cs : List Char) : Bool :=
  4 ≤ (cs.take 4).foldl (fun size c => size + c.utf8Size) 0

/-- Whether a code is the first half of a pair. -/
def isLeading (n : Nat) : Bool := 0xD800 ≤ n && n < 0xDC00

/-- Whether a code is the second half of a pair. -/
def isTrailing (n : Nat) : Bool := 0xDC00 ≤ n && n < 0xE000

/-- The character that a pair of halves stands for. -/
def ofPair (leading trailing : Nat) : Char :=
  Char.ofNat (0x10000 + (leading - 0xD800) * 0x400 + (trailing - 0xDC00))

/-! ### Strings -/

/-- Where in a string the reader is.

* `plain` — between characters;
* `backslash` — behind a backslash;
* `digits` — inside a numeric escape, with so many digits to come, the value
  so far, and the first half if this is the second of a pair;
* `pairBackslash`, `pairLetter` — behind the first half of a pair, where a
  backslash and then a `u` must follow. -/
inductive StringState where
  | plain
  | backslash
  | digits (left value : Nat) (leading : Option Nat)
  | pairBackslash (leading : Nat)
  | pairLetter (leading : Nat)

/-- Put a character in front of what the rest of a string stands for. -/
def prepend (c : Char) :
    Except Fault (List Char × List Char) → Except Fault (List Char × List Char)
  | .ok (content, rest) => .ok (c :: content, rest)
  | .error f => .error f

/-- Read the rest of a string. -/
def readStringFrom : StringState → Reader (List Char)
  | _, [] => .error .truncated
  | .plain, c :: cs =>
    if c = '"' then .ok ([], cs)
    else if c = '\\' then readStringFrom .backslash cs
    else if isControl c then .error .malformed
    else prepend c (readStringFrom .plain cs)
  | .backslash, c :: cs =>
    if c = 'u' then
      if hasFourBytes cs then readStringFrom (.digits 4 0 none) cs else .error .truncated
    else
      match escaped? c with
      | some d => prepend d (readStringFrom .plain cs)
      | none => .error .malformed
  | .digits left value leading, c :: cs =>
    match hexValue? c with
    | none => .error .malformed
    | some d =>
      let value := value * 16 + d
      if 1 < left then readStringFrom (.digits (left - 1) value leading) cs
      else
        match leading with
        | none =>
          if isLeading value then readStringFrom (.pairBackslash value) cs
          else if isTrailing value then .error .malformed
          else prepend (Char.ofNat value) (readStringFrom .plain cs)
        | some first =>
          if isTrailing value then prepend (ofPair first value) (readStringFrom .plain cs)
          else .error .malformed
  | .pairBackslash leading, c :: cs =>
    if c = '\\' then readStringFrom (.pairLetter leading) cs else .error .malformed
  | .pairLetter leading, c :: cs =>
    if c = 'u' then
      if hasFourBytes cs then readStringFrom (.digits 4 0 (some leading)) cs
      else .error .truncated
    else .error .malformed

/-- Read a string from behind its opening quote. -/
def readString : Reader (List Char) := readStringFrom .plain

end PcEngine.Json
