/-
PcEngine/Proofs/Settings/Members.lean

How the members of a settings text are read.

`Settings.Writes` says which texts are the value of a member in some settings: a whole
number, one of the two truth values, or a string that spells a name.  A reader takes such
a value, with blanks before it, and keeps it among what has been found
(`Writes.readField`).  With a key that spells that of the member, and a colon, this is a
whole member (`readMember_of_writes`).

Members stand in an object, the first behind its opening brace and every other behind a
comma.  Here a reader is said to go on to the next member or to end; which members there
are is left to those who read a whole text.
-/
import PcEngine.Proofs.Json.Tokens
import PcEngine.Settings.Reader

namespace PcEngine.Settings

open Json (IsBlanks IsWhole Spells EndsNumber digitsValue skipBlanks skipBlanks_append
  skipBlanks_cons isBlank_of_isDigit expect_append readString_of_spells readNumber_of_isWhole)

variable {s : Settings} {f : Field} {b text rest : List Char}

/-! ### What has been found -/

/-- Keep the value of a member in some settings. -/
def Found.give (s : Settings) (found : Found) : Field → Found
  | .threshold => { found with threshold := some s.threshold }
  | .territory => { found with territory := some s.territory }
  | .repeatRom => { found with repeatRom := some s.repeatRom }
  | .logLevel => { found with logLevel := some s.logLevel }

theorem Found.has_give (s : Settings) (found : Found) (f f' : Field) :
    (found.give s f).has f' = (decide (f = f') || found.has f') := by
  cases f <;> cases f' <;> rfl

theorem Field.ofKey?_key (f : Field) : Field.ofKey? f.key.toList = some f := by
  cases f <;> rfl

theorem territoryOfName?_name (t : Territory) :
    territoryOfName? (territoryName t).toList = some t := by
  cases t <;> rfl

theorem levelOfName?_name (l : Log.Level) : levelOfName? l.name.toList = some l := by
  cases l <;> rfl

/-! ### Values -/

/-- The value of a member in some settings, as a text may give it. -/
inductive Writes (s : Settings) : Field → List Char → Prop
  | threshold {ds : List Char} :
    IsWhole ds → digitsValue ds = s.threshold.toNat → Writes s .threshold ds
  | territory {name : List Char} :
    Spells name (territoryName s.territory).toList →
    Writes s .territory ('"' :: (name ++ ['"']))
  | repeatRom : Writes s .repeatRom (if s.repeatRom then "true" else "false").toList
  | logLevel {name : List Char} :
    Spells name s.logLevel.name.toList → Writes s .logLevel ('"' :: (name ++ ['"']))

/-- A whole number of 32 bits is read as its value. -/
theorem readThreshold_of_isWhole {ds : List Char} (hb : IsBlanks b) (h : IsWhole ds)
    (hvalue : digitsValue ds < UInt32.size) (hrest : EndsNumber rest) :
    readThreshold (b ++ (ds ++ rest)) = .ok (UInt32.ofNat (digitsValue ds), rest) := by
  have hnumber := readNumber_of_isWhole h (Nat.lt_trans hvalue (by decide)) hrest
  obtain ⟨c, cs, rfl, hc⟩ : ∃ c cs, ds = c :: cs ∧ c.isDigit = true := by
    cases h with
    | zero => exact ⟨'0', [], rfl, rfl⟩
    | @digits c cs _ hdigits => exact ⟨c, cs, rfl, hdigits.2 c List.mem_cons_self⟩
  have hminus : c ≠ '-' := by
    rintro rfl
    cases hc
  rw [readThreshold, skipBlanks_append hb, List.cons_append,
    skipBlanks_cons (isBlank_of_isDigit hc)]
  dsimp only
  rw [if_neg hminus, if_pos hc, ← List.cons_append, hnumber]
  dsimp only
  rw [if_pos hvalue]

/-- A truth value is read as it is. -/
theorem readFlag_append (hb : IsBlanks b) (flag : Bool) (rest : List Char) :
    readFlag (b ++ ((if flag then "true" else "false").toList ++ rest)) = .ok (flag, rest) := by
  rw [readFlag, skipBlanks_append hb]
  cases flag with
  | true => exact congrArg (Except.map (true, ·)) (expect_append ['r', 'u', 'e'] rest)
  | false => exact congrArg (Except.map (false, ·)) (expect_append ['a', 'l', 's', 'e'] rest)

/-- A string that spells a known name is read as what has that name. -/
theorem readName_of_spells {α : Type} {ofName? : List Char → Option α} {a : α}
    {name content : List Char} (hb : IsBlanks b) (h : Spells name content)
    (hname : ofName? content = some a) (rest : List Char) :
    readName ofName? (b ++ ('"' :: (name ++ ['"']) ++ rest)) = .ok (a, rest) := by
  rw [readName, skipBlanks_append hb, List.cons_append, List.append_assoc,
    skipBlanks_cons (by decide)]
  show readKnown ofName? (name ++ '"' :: rest) = _
  rw [readKnown, readString_of_spells h]
  dsimp only [bind, Except.bind]
  rw [hname]

/-- **A value is read and kept.** -/
theorem Writes.readField (h : s.Writes f text) (hb : IsBlanks b) (hrest : EndsNumber rest)
    (found : Found) :
    found.readField f (b ++ (text ++ rest)) = .ok (found.give s f, rest) := by
  cases h with
  | threshold hwhole hvalue =>
    have hsize : digitsValue text < UInt32.size := hvalue ▸ s.threshold.toNat_lt
    rw [Found.readField, readThreshold_of_isWhole hb hwhole hsize hrest, hvalue,
      UInt32.ofNat_toNat]
    rfl
  | territory hname =>
    rw [Found.readField, readName_of_spells hb hname (territoryOfName?_name _)]
    rfl
  | repeatRom =>
    rw [Found.readField, readFlag_append hb]
    rfl
  | logLevel hname =>
    rw [Found.readField, readName_of_spells hb hname (levelOfName?_name _)]
    rfl

/-! ### A member -/

theorem readColon_append (hb : IsBlanks b) (cs : List Char) :
    readColon (b ++ ':' :: cs) = .ok cs := by
  rw [readColon, skipBlanks_append hb, skipBlanks_cons (by decide)]
  rfl

/-- **A member is read and kept**, if none with its key has been before. -/
theorem readMember_of_writes {key b' : List Char} {found : Found}
    (hkey : Spells key f.key.toList) (hb : IsBlanks b) (hb' : IsBlanks b')
    (h : s.Writes f text) (hrest : EndsNumber rest) (hnew : found.has f = false) :
    readMember found (key ++ '"' :: (b ++ ':' :: (b' ++ (text ++ rest)))) =
      .ok (found.give s f, rest) := by
  rw [readMember, readString_of_spells hkey]
  dsimp only [bind, Except.bind]
  rw [Field.ofKey?_key]
  dsimp only
  rw [hnew, if_neg Bool.false_ne_true, readColon_append hb]
  exact h.readField hb' hrest found

/-! ### Where members stand -/

/-- Behind a member, another one follows a comma. -/
theorem readMoreMembers_comma {b' : List Char} (hb : IsBlanks b) (hb' : IsBlanks b')
    (found : Found) (fuel : Nat) (rest : List Char) :
    readMoreMembers found (fuel + 1) (b ++ ',' :: (b' ++ '"' :: rest)) = (do
      let (found, rest) ← readMember found rest
      readMoreMembers found fuel rest) := by
  have hcomma : skipBlanks (b ++ ',' :: (b' ++ '"' :: rest)) = ',' :: (b' ++ '"' :: rest) :=
    (skipBlanks_append hb _).trans (skipBlanks_cons rfl _)
  have hkey : skipBlanks (b' ++ '"' :: rest) = '"' :: rest :=
    (skipBlanks_append hb' _).trans (skipBlanks_cons rfl _)
  simp only [readMoreMembers, hcomma, hkey]

/-- Behind a member, the object may end. -/
theorem readMoreMembers_brace (hb : IsBlanks b) (found : Found) (fuel : Nat)
    (rest : List Char) :
    readMoreMembers found (fuel + 1) (b ++ '\x7d' :: rest) = .ok (found, rest) := by
  have hbrace : skipBlanks (b ++ '\x7d' :: rest) = '\x7d' :: rest :=
    (skipBlanks_append hb _).trans (skipBlanks_cons rfl _)
  simp only [readMoreMembers, hbrace]

/-- Behind the opening brace, a first member may follow. -/
theorem readObject_key (hb : IsBlanks b) (rest : List Char) :
    readObject (b ++ '"' :: rest) = (do
      let (found, rest) ← readMember .nothing rest
      readMoreMembers found (rest.length + 1) rest) := by
  have hkey : skipBlanks (b ++ '"' :: rest) = '"' :: rest :=
    (skipBlanks_append hb _).trans (skipBlanks_cons rfl _)
  simp only [readObject, hkey]

/-- Behind the opening brace, the object may end. -/
theorem readObject_brace (hb : IsBlanks b) (rest : List Char) :
    readObject (b ++ '\x7d' :: rest) = .ok (.nothing, rest) := by
  have hbrace : skipBlanks (b ++ '\x7d' :: rest) = '\x7d' :: rest :=
    (skipBlanks_append hb _).trans (skipBlanks_cons rfl _)
  simp only [readObject, hbrace]

/-- A text may be an object. -/
theorem readSettings_brace (hb : IsBlanks b) (cs : List Char) :
    readSettings (b ++ '\x7b' :: cs) =
      (readObject cs).map fun (found, rest) => (found.settings, rest) := by
  have hbrace : skipBlanks (b ++ '\x7b' :: cs) = '\x7b' :: cs :=
    (skipBlanks_append hb _).trans (skipBlanks_cons rfl _)
  simp only [readSettings, hbrace]

end PcEngine.Settings
