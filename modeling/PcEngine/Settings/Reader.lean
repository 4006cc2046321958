/-
PcEngine/Settings/Reader.lean

Reading settings.

A text is an object, or a list of the four values in order.  Members and values
may be missing and have their standard value then; members with other keys are
passed over, and a key may not be given twice.  The threshold is a natural
number of 32 bits, and a name may also be written as the key of an object whose
only value is null.

What is wrong with a text is found from the left: the fault that is reported is
the first one that shows.  A value of the wrong type shows at its end.
-/
import PcEngine.Json.Value
import PcEngine.Settings.Basic

namespace PcEngine.Settings

open Json (Fault Reader skipBlanks expect readString readNumber skipValue unfit)

/-! ### Values -/

/-- Read a natural number of 32 bits. -/
def readThreshold : Reader UInt32 := fun cs =>
  match skipBlanks cs with
  | [] => .error .truncated
  | c :: cs =>
    if c = '-' then
      match readNumber true cs with
      | .ok _ => .error .unfit
      | .error f => .error f
    else if c.isDigit then
      match readNumber false (c :: cs) with
      | .ok (.natural n, rest) =>
        if n < UInt32.size then .ok (UInt32.ofNat n, rest) else .error .unfit
      | .ok (.other, _) => .error .unfit
      | .error f => .error f
    else .error (unfit (c :: cs))

/-- Read a truth value. -/
def readFlag : Reader Bool := fun cs =>
  match skipBlanks cs with
  | [] => .error .truncated
  | 't' :: cs => (expect ['r', 'u', 'e'] cs).map (true, ·)
  | 'f' :: cs => (expect ['a', 'l', 's', 'e'] cs).map (false, ·)
  | cs => .error (unfit cs)

/-- Read a colon. -/
def readColon (cs : List Char) : Except Fault (List Char) :=
  match skipBlanks cs with
  | [] => .error .truncated
  | c :: cs => if c = ':' then .ok cs else .error .malformed

/-- Read a null. -/
def readNull (cs : List Char) : Except Fault (List Char) :=
  match skipBlanks cs with
  | [] => .error .truncated
  | 'n' :: cs => expect ['u', 'l', 'l'] cs
  | cs => .error (unfit cs)

/-- Read a closing brace. -/
def readBrace (cs : List Char) : Except Fault (List Char) :=
  match skipBlanks cs with
  | [] => .error .truncated
  | c :: cs => if c = '\x7d' then .ok cs else .error .malformed

/-- Read a string that is one of the known names. -/
def readKnown {α : Type} (ofName? : List Char → Option α) : Reader α := fun cs => do
  let (name, rest) ← readString cs
  match ofName? name with
  | some a => .ok (a, rest)
  | none => .error .unfit

/-- Read one of the known names, as a string or as the key of a null.  What is
neither a string nor an object is malformed here, and so is a key that is no
string. -/
def readName {α : Type} (ofName? : List Char → Option α) : Reader α := fun cs =>
  match skipBlanks cs with
  | [] => .error .truncated
  | '"' :: cs => readKnown ofName? cs
  | '\x7b' :: cs =>
    match skipBlanks cs with
    | [] => .error .truncated
    | '"' :: cs => do
      let (a, rest) ← readKnown ofName? cs
      let rest ← readColon rest
      let rest ← readNull rest
      let rest ← readBrace rest
      .ok (a, rest)
    | _ => .error .malformed
  | _ => .error .malformed

/-! ### What has been found so far -/

/-- The values that a text has given so far. -/
structure Found where
  threshold : Option UInt32
  territory : Option Territory
  repeatRom : Option Bool
  logLevel : Option Log.Level

namespace Found

def nothing : Found := ⟨none, none, none, none⟩

/-- Whether a member has been given. -/
def has (found : Found) : Field → Bool
  | .threshold => found.threshold.isSome
  | .territory => found.territory.isSome
  | .repeatRom => found.repeatRom.isSome
  | .logLevel => found.logLevel.isSome

/-- The settings: what was given, and standard values for the rest. -/
def settings (found : Found) : Settings where
  threshold := found.threshold.getD standard.threshold
  territory := found.territory.getD standard.territory
  repeatRom := found.repeatRom.getD standard.repeatRom
  logLevel := found.logLevel.getD standard.logLevel

/-- Read the value of a member. -/
def readField (found : Found) (f : Field) : Reader Found := fun cs =>
  match f with
  | .threshold => do
    let (value, rest) ← readThreshold cs
    .ok ({ found with threshold := some value }, rest)
  | .territory => do
    let (value, rest) ← readName territoryOfName? cs
    .ok ({ found with territory := some value }, rest)
  | .repeatRom => do
    let (value, rest) ← readFlag cs
    .ok ({ found with repeatRom := some value }, rest)
  | .logLevel => do
    let (value, rest) ← readName levelOfName? cs
    .ok ({ found with logLevel := some value }, rest)

end Found

/-! ### Objects -/

/-- Read a member from behind the opening quote of its key. -/
def readMember (found : Found) : Reader Found := fun cs => do
  let (key, rest) ← readString cs
  match Field.ofKey? key with
  | some f =>
    if found.has f then .error .unfit
    else
      let rest ← readColon rest
      found.readField f rest
  | none =>
    let rest ← readColon rest
    let rest ← skipValue rest
    .ok (found, rest)

/-- Read members that follow another one, and the closing brace.  Every member
takes at least one character, so `fuel` need not be more than the length of the
text. -/
def readMoreMembers (found : Found) : Nat → Reader Found
  | 0, _ => .error .truncated
  | fuel + 1, cs =>
    match skipBlanks cs with
    | [] => .error .truncated
    | '\x7d' :: rest => .ok (found, rest)
    | ',' :: rest =>
      match skipBlanks rest with
      | [] => .error .truncated
      | '"' :: rest => do
        let (found, rest) ← readMember found rest
        readMoreMembers found fuel rest
      | _ => .error .malformed
    | _ => .error .malformed

/-- Read an object from behind its opening brace. -/
def readObject : Reader Found := fun cs =>
  match skipBlanks cs with
  | [] => .error .truncated
  | '\x7d' :: rest => .ok (.nothing, rest)
  | '"' :: rest => do
    let (found, rest) ← readMember .nothing rest
    readMoreMembers found (rest.length + 1) rest
  | _ => .error .malformed

/-! ### Lists -/

/-- Read the values of these members, in order, from behind the opening bracket
of a list or behind a value in it; the list may end before any of them. -/
def readElements (found : Found) (first : Bool) : List Field → Reader Found
  | [], cs =>
    match skipBlanks cs with
    | [] => .error .truncated
    | ']' :: rest => .ok (found, rest)
    | _ => .error .malformed
  | f :: fs, cs =>
    match skipBlanks cs with
    | [] => .error .truncated
    | ']' :: rest => .ok (found, rest)
    | c :: rest =>
      if first then do
        let (found, rest) ← found.readField f (c :: rest)
        readElements found false fs rest
      else if c = ',' then
        match skipBlanks rest with
        | [] => .error .truncated
        | ']' :: _ => .error .malformed
        | rest => do
          let (found, rest) ← found.readField f rest
          readElements found false fs rest
      else .error .malformed

/-! ### The whole text -/

/-- Read settings from the front of a text. -/
def readSettings : Reader Settings := fun cs =>
  match skipBlanks cs with
  | [] => .error .truncated
  | '\x7b' :: cs => (readObject cs).map fun (found, rest) => (found.settings, rest)
  | '[' :: cs =>
    (readElements .nothing true Field.all cs).map fun (found, rest) => (found.settings, rest)
  | cs => .error (unfit cs)

/-- Read settings from a text that holds nothing else. -/
def ofChars (cs : List Char) : Except Fault Settings := do
  let (settings, rest) ← readSettings cs
  if (skipBlanks rest).isEmpty then .ok settings else .error .malformed

/-- Read settings from a text that holds nothing else. -/
def ofText (text : String) : Except Fault Settings := ofChars text.toList

end PcEngine.Settings
