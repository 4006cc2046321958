/-
PcEngine/Proofs/Settings/RoundTrip.lean

Settings that are written down are read back.

The text of settings is an object with their four members.  It is written as a whole, by
putting commas between the members, but read from the left, and there a comma belongs to
the member behind it (`renderChars_eq`).  Each member is of the form that is read and kept
(`readMember_of_writes`), so the induction over the members behind the first one goes with
what has been found so far (`readMoreMembers_renderMore`).

Main result: the text of any settings is read as these settings (`parse_render`).
-/
import PcEngine.Proofs.Settings.Members
import PcEngine.Settings.File

namespace PcEngine.Settings

open Json (IsBlanks Spells EndsNumber isBlanks_nil spells_of_isPlain digitsValue_toDigits
  isWhole_toDigits)

variable {s : Settings} {found : Found}

/-! ### Members as they are written -/

theorem Field.spells_key (f : Field) : Spells f.key.toList f.key.toList :=
  spells_of_isPlain (by cases f <;> decide)

theorem spells_territoryName (t : Territory) :
    Spells (territoryName t).toList (territoryName t).toList :=
  spells_of_isPlain (by cases t <;> decide)

theorem spells_levelName (l : Log.Level) : Spells l.name.toList l.name.toList :=
  spells_of_isPlain (by cases l <;> decide)

/-- A value is written as one that may be read. -/
theorem writes_renderValue (s : Settings) (f : Field) : s.Writes f (s.renderValue f) := by
  cases f with
  | threshold => exact .threshold (isWhole_toDigits _) (digitsValue_toDigits _)
  | territory => exact .territory (spells_territoryName s.territory)
  | repeatRom => exact .repeatRom
  | logLevel => exact .logLevel (spells_levelName s.logLevel)

/-- The blanks before a member. -/
def indent : List Char := ['\n', ' ', ' ']

theorem isBlanks_indent : IsBlanks indent := by decide

theorem isBlanks_newline : IsBlanks ['\n'] := by decide

theorem isBlanks_space : IsBlanks [' '] := by decide

/-- A member with its parts apart, and something behind it. -/
theorem renderMember_append (s : Settings) (f : Field) (rest : List Char) :
    s.renderMember f ++ rest =
      indent ++ '"' :: (f.key.toList ++
        '"' :: ([] ++ ':' :: ([' '] ++ (s.renderValue f ++ rest)))) := by
  simp [renderMember, quote, indent]

/-- A member is read and kept. -/
theorem readMember_rendered {f : Field} {rest : List Char} (hrest : EndsNumber rest)
    (hnew : found.has f = false) :
    readMember found (f.key.toList ++ '"' :: ([] ++ ':' :: ([' '] ++ (s.renderValue f ++ rest)))) =
      .ok (found.give s f, rest) :=
  readMember_of_writes f.spells_key isBlanks_nil isBlanks_space (s.writes_renderValue f) hrest hnew

/-! ### Members behind the first one -/

/-- Members with a comma before each, and the end of the text. -/
def renderMore (s : Settings) : List Field → List Char
  | [] => ['\n', '\x7d']
  | f :: fs => ',' :: (s.renderMember f ++ s.renderMore fs)

theorem endsNumber_renderMore (s : Settings) (fs : List Field) :
    EndsNumber (s.renderMore fs) := by
  intro c hc
  cases fs <;> (cases hc; decide)

/-- The text of settings, read from the left. -/
theorem renderChars_eq (s : Settings) :
    s.renderChars = '\x7b' :: (s.renderMember .threshold ++
      s.renderMore [.territory, .repeatRom, .logLevel]) := by
  simp [renderChars, renderMore, Field.all, List.intercalate, List.intersperse]

/-- **Members are read and kept one after the other.** -/
theorem readMoreMembers_renderMore {fs : List Field} (hdistinct : fs.Nodup)
    (hnew : ∀ f ∈ fs, found.has f = false) {fuel : Nat} (hfuel : (s.renderMore fs).length < fuel) :
    readMoreMembers found fuel (s.renderMore fs) = .ok (fs.foldl (Found.give s) found, []) := by
  induction fs generalizing found fuel with
  | nil =>
    obtain ⟨fuel, rfl⟩ := Nat.exists_eq_add_one_of_ne_zero (Nat.ne_zero_of_lt hfuel)
    exact readMoreMembers_brace isBlanks_newline found fuel []
  | cons f fs ih =>
    obtain ⟨fuel, rfl⟩ := Nat.exists_eq_add_one_of_ne_zero (Nat.ne_zero_of_lt hfuel)
    obtain ⟨hother, hdistinct⟩ := List.nodup_cons.mp hdistinct
    have hshorter : (s.renderMore fs).length < fuel := by
      rw [renderMore, List.length_cons, List.length_append] at hfuel
      omega
    -- the members that are left have not been found by reading this one
    have hleft : ∀ g ∈ fs, (found.give s f).has g = false := by
      intro g hg
      have hne : f ≠ g := fun h => hother (h ▸ hg)
      rw [Found.has_give, decide_eq_false hne, hnew g (List.mem_cons_of_mem f hg), Bool.or_false]
    rw [renderMore, renderMember_append]
    refine (readMoreMembers_comma isBlanks_nil isBlanks_indent found fuel _).trans ?_
    rw [readMember_rendered (s.endsNumber_renderMore fs) (hnew f List.mem_cons_self)]
    exact ih hdistinct hleft hshorter

/-! ### The whole text -/

/-- All members have been found. -/
theorem settings_give_all (s : Settings) :
    (Field.all.foldl (Found.give s) .nothing).settings = s := rfl

/-- The object of the text, from behind its opening brace. -/
theorem readObject_rendered (s : Settings) :
    readObject (s.renderMember .threshold ++ s.renderMore [.territory, .repeatRom, .logLevel]) =
      .ok (Field.all.foldl (Found.give s) .nothing, []) := by
  have hleft : ∀ f ∈ [Field.territory, .repeatRom, .logLevel],
      (Found.nothing.give s .threshold).has f = false := by
    simp only [Found.has_give]
    decide
  rw [renderMember_append, readObject_key isBlanks_indent,
    readMember_rendered (s.endsNumber_renderMore _) rfl]
  exact readMoreMembers_renderMore (by decide) hleft (Nat.lt_succ_self _)

/-- **Settings that are written down are read back.** -/
theorem parse_render (s : Settings) : parse s.render = .ok s := by
  have htext : s.render.toList = s.renderChars := String.toList_ofList
  have hsettings : readSettings s.renderChars = .ok (s, []) := by
    rw [renderChars_eq]
    refine (readSettings_brace isBlanks_nil _).trans ?_
    rw [readObject_rendered]
    exact congrArg (fun found => Except.ok (found, [])) s.settings_give_all
  rw [parse, ofText, htext, ofChars, hsettings]
  rfl

end PcEngine.Settings
