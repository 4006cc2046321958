/-
PcEngine/Json/Value.lean

Values of no interest.

`skipValue` passes over one value of any kind, nested to any depth: the open
brackets are kept in a list, and every character is looked at once.  Inside a
skipped value numbers may have any size, and escapes need not pair up.

`unfit` is the fault of finding a value where one of another type was wanted:
a scalar is read to its end, and if that fails, its own fault comes first.
-/
import PcEngine.Json.Escape
import PcEngine.Json.Number

namespace PcEngine.Json

/-! ### The state between two characters -/

/-- An open bracket. -/
inductive Frame where
  | list
  | object
  deriving DecidableEq

/-- Where in a value the reader is; `ofKey` says whether a string is the key of
a member. -/
inductive Place where
  /-- A value must follow. -/
  | value
  /-- Behind the opening bracket of a list. -/
  | listStart
  /-- Behind the opening brace of an object. -/
  | objectStart
  /-- A key must follow. -/
  | key
  /-- A colon must follow. -/
  | colon
  /-- Inside the name of a constant, with these letters to come. -/
  | constant (left : List Char)
  | inString (ofKey : Bool)
  | backslash (ofKey : Bool)
  /-- Inside a numeric escape, with so many digits to come. -/
  | hexDigits (left : Nat) (ofKey : Bool)
  /-- Behind a minus sign. -/
  | sign
  /-- Behind a leading zero. -/
  | zero
  | digits
  /-- Behind a decimal point. -/
  | point
  | fraction
  /-- Behind the letter of an exponent. -/
  | exponent
  /-- Behind the sign of an exponent. -/
  | exponentSign
  | exponentDigits
  /-- A value has ended. -/
  | ended
  deriving DecidableEq

/-- Whether a value is complete if it ends here. -/
def Place.isComplete : Place → Bool
  | .zero | .digits | .fraction | .exponentDigits | .ended => true
  | _ => false

/-- Whether a digit is missing if the text ends here; that is malformed, while
every other text that ends inside a value is truncated. -/
def Place.lacksDigit : Place → Bool
  | .sign | .point | .exponent | .exponentSign => true
  | _ => false

/-! ### One character -/

/-- The state behind one character: where in the value, and which brackets are
open. -/
abbrev Progress := Except Fault (Place × List Frame)

/-- Begin a value. -/
def startValue (frames : List Frame) (c : Char) : Progress :=
  if isBlank c then .ok (.value, frames)
  else
    match c with
    | 'n' => .ok (.constant ['u', 'l', 'l'], frames)
    | 't' => .ok (.constant ['r', 'u', 'e'], frames)
    | 'f' => .ok (.constant ['a', 'l', 's', 'e'], frames)
    | '-' => .ok (.sign, frames)
    | '0' => .ok (.zero, frames)
    | '"' => .ok (.inString false, frames)
    | '[' => .ok (.listStart, .list :: frames)
    | '\x7b' => .ok (.objectStart, .object :: frames)
    | c => if c.isDigit then .ok (.digits, frames) else .error .malformed

/-- Begin a key. -/
def startKey (frames : List Frame) (c : Char) : Progress :=
  if isBlank c then .ok (.key, frames)
  else if c = '"' then .ok (.inString true, frames)
  else .error .malformed

/-- What may follow a value inside brackets. -/
def afterValue (frames : List Frame) (c : Char) : Progress :=
  if isBlank c then .ok (.ended, frames)
  else
    match frames, c with
    | .list :: _, ',' => .ok (.value, frames)
    | .list :: outer, ']' => .ok (.ended, outer)
    | .object :: _, ',' => .ok (.key, frames)
    | .object :: outer, '\x7d' => .ok (.ended, outer)
    | _, _ => .error .malformed

/-- Whether a number goes on, and where to. -/
def continueNumber (p : Place) (c : Char) : Option Place :=
  match p with
  | .digits | .zero =>
    if c = '.' then some .point
    else if c = 'e' || c = 'E' then some .exponent
    else if c.isDigit && p = .digits then some .digits
    else none
  | .fraction =>
    if c.isDigit then some .fraction
    else if c = 'e' || c = 'E' then some .exponent
    else none
  | .exponentDigits => if c.isDigit then some .exponentDigits else none
  | _ => none

/-- Take one character; `rest` is the text behind it. -/
def stepValue (p : Place) (frames : List Frame) (c : Char) (rest : List Char) : Progress :=
  match p with
  | .value => startValue frames c
  | .listStart =>
    if isBlank c then .ok (.listStart, frames)
    else if c = ']' then .ok (.ended, frames.tail)
    else startValue frames c
  | .objectStart =>
    if isBlank c then .ok (.objectStart, frames)
    else if c = '\x7d' then .ok (.ended, frames.tail)
    else startKey frames c
  | .key => startKey frames c
  | .colon =>
    if isBlank c then .ok (.colon, frames)
    else if c = ':' then .ok (.value, frames)
    else .error .malformed
  | .constant [] => .error .malformed
  | .constant (w :: ws) =>
    if c = w then .ok (if ws.isEmpty then .ended else .constant ws, frames)
    else .error .malformed
  | .inString ofKey =>
    if c = '"' then .ok (if ofKey then .colon else .ended, frames)
    else if c = '\\' then .ok (.backslash ofKey, frames)
    else if isControl c then .error .malformed
    else .ok (.inString ofKey, frames)
  | .backslash ofKey =>
    if c = 'u' then
      if hasFourBytes rest then .ok (.hexDigits 4 ofKey, frames) else .error .truncated
    else if (escaped? c).isSome then .ok (.inString ofKey, frames)
    else .error .malformed
  | .hexDigits left ofKey =>
    if (hexValue? c).isSome then
      .ok (if 1 < left then .hexDigits (left - 1) ofKey else .inString ofKey, frames)
    else .error .malformed
  | .sign =>
    if c = '0' then .ok (.zero, frames)
    else if c.isDigit then .ok (.digits, frames)
    else .error .malformed
  | .point => if c.isDigit then .ok (.fraction, frames) else .error .malformed
  | .exponent =>
    if c = '+' || c = '-' then .ok (.exponentSign, frames)
    else if c.isDigit then .ok (.exponentDigits, frames)
    else .error .malformed
  | .exponentSign => if c.isDigit then .ok (.exponentDigits, frames) else .error .malformed
  | .zero =>
    match continueNumber p c with
    | some p => .ok (p, frames)
    | none => if c.isDigit then .error .malformed else afterValue frames c
  | .digits | .fraction | .exponentDigits =>
    match continueNumber p c with
    | some p => .ok (p, frames)
    | none => afterValue frames c
  | .ended => afterValue frames c

/-- Whether the value has ended in front of this character: all brackets are
closed, and a number does not go on.  A digit behind a leading zero is left to
be found malformed. -/
def endsBefore (p : Place) (frames : List Frame) (c : Char) : Bool :=
  frames.isEmpty && p.isComplete && (continueNumber p c).isNone &&
    !(p = .zero && c.isDigit)

/-! ### A whole value -/

/-- Pass over the rest of a value; gives the text behind it. -/
def skipFrom : Place → List Frame → List Char → Except Fault (List Char)
  | p, frames, [] =>
    if p.isComplete && frames.isEmpty then .ok []
    else if p.lacksDigit then .error .malformed
    else .error .truncated
  | p, frames, c :: cs =>
    if endsBefore p frames c then .ok (c :: cs)
    else
      match stepValue p frames c cs with
      | .ok (p, frames) => skipFrom p frames cs
      | .error f => .error f

/-- Pass over one value. -/
def skipValue (cs : List Char) : Except Fault (List Char) := skipFrom .value [] cs

/-! ### Values of the wrong type -/

/-- The fault of reading something that should have succeeded, and then not
wanting it. -/
def unfitAfter {α : Type} : Except Fault α → Fault
  | .ok _ => .unfit
  | .error f => f

/-- The fault of a value that starts here and has the wrong type. -/
def unfit (cs : List Char) : Fault :=
  match cs with
  | [] => .malformed
  | 'n' :: cs => unfitAfter (expect ['u', 'l', 'l'] cs)
  | 't' :: cs => unfitAfter (expect ['r', 'u', 'e'] cs)
  | 'f' :: cs => unfitAfter (expect ['a', 'l', 's', 'e'] cs)
  | '"' :: cs => unfitAfter (readString cs)
  | '-' :: cs => unfitAfter (readNumber true cs)
  | '[' :: _ | '\x7b' :: _ => .unfit
  | c :: _ => if c.isDigit then unfitAfter (readNumber false cs) else .malformed

end PcEngine.Json
