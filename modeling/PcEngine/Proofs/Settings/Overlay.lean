/-
PcEngine/Proofs/Settings/Overlay.lean

Settings that a text gives in part.

The members of an object may stand in any order, with any blanks, and some may be of no
interest.  What they give is put over the standard settings (`Overlays`): a field whose key
is among the keys has the value that stands there, and every other field its standard
value.

Reading goes from the left, with what has been found so far.  A member with the key of a
field gives this field, and any other member changes nothing (`Found.take`), as its value is
passed over exactly, whatever it is.  Keys are compared by the characters that they stand
for, so an escape in one makes no difference.

Main result: a text whose members have keys of their own and values that their fields admit
is read, as these settings (`parse_eq_ok_iff_overlays`).
-/
import Mathlib.Data.List.Nodup
import PcEngine.Proofs.Json.Skip
import PcEngine.Proofs.Settings.Members
import PcEngine.Settings.File

namespace PcEngine.Settings

open Json (IsBlanks IsWhole IsExponent IsNumber IsBody IsValue IsElements Spells Member
  SpellsMember SpellsMembers SpellsObject EndsNumber digitsValue endsNumber_cons
  endsNumber_blanks isBlanks_nil skipBlanks skipBlanks_append skipValue_append
  readString_of_spells spells_of_isPlain)

variable {s s' : Settings} {f : Field} {found : Found} {m : Member} {ms : List Member}
variable {b text rest : List Char}

/-! ### What members give -/

/-- What may stand as the value of a field. -/
inductive Field.Admits : Field → List Char → Prop
  | threshold {ds : List Char} :
    IsWhole ds → digitsValue ds < UInt32.size → Admits .threshold ds
  | territory {name : List Char} {t : Territory} :
    Spells name (territoryName t).toList → Admits .territory ('"' :: (name ++ ['"']))
  | repeatRom {flag : Bool} : Admits .repeatRom (if flag then "true" else "false").toList
  | logLevel {name : List Char} {l : Log.Level} :
    Spells name l.name.toList → Admits .logLevel ('"' :: (name ++ ['"']))

/-- Two settings have the same value in a field. -/
def Agrees (s s' : Settings) : Field → Prop
  | .threshold => s.threshold = s'.threshold
  | .territory => s.territory = s'.territory
  | .repeatRom => s.repeatRom = s'.repeatRom
  | .logLevel => s.logLevel = s'.logLevel

/-- The standard settings with what some members give put over them.

* `given` — a field whose key is among the keys has the value that stands there;
* `rest` — every other field has its standard value. -/
structure Overlays (ms : List Member) (s : Settings) : Prop where
  given : ∀ m ∈ ms, ∀ f : Field, m.key = f.key.toList → s.Writes f m.value
  rest : ∀ f : Field, (∀ m ∈ ms, m.key ≠ f.key.toList) → s.Agrees standard f

theorem Agrees.symm (h : s.Agrees s' f) : s'.Agrees s f := by
  cases f <;> exact Eq.symm h

theorem Agrees.trans {s'' : Settings} (h : s.Agrees s' f) (h' : s'.Agrees s'' f) :
    s.Agrees s'' f := by
  cases f <;> exact Eq.trans h h'

theorem eq_of_agrees (h : ∀ f, s.Agrees s' f) : s = s' := by
  have hthreshold : s.threshold = s'.threshold := h .threshold
  have hterritory : s.territory = s'.territory := h .territory
  have hrepeat : s.repeatRom = s'.repeatRom := h .repeatRom
  have hlevel : s.logLevel = s'.logLevel := h .logLevel
  cases s
  cases s'
  simp only at hthreshold hterritory hrepeat hlevel
  rw [hthreshold, hterritory, hrepeat, hlevel]

theorem Writes.of_agrees (h : s.Writes f text) (hs : s.Agrees s' f) : s'.Writes f text := by
  cases h with
  | threshold hwhole hvalue => exact .threshold hwhole (hs ▸ hvalue)
  | territory hname => exact .territory (hs ▸ hname)
  | repeatRom =>
    have hflag : s.repeatRom = s'.repeatRom := hs
    rw [hflag]
    exact .repeatRom
  | logLevel hname => exact .logLevel (hs ▸ hname)

theorem Field.Admits.exists_writes (h : f.Admits text) : ∃ s : Settings, s.Writes f text := by
  cases h with
  | threshold hwhole hvalue =>
    exact ⟨{ standard with threshold := UInt32.ofNat (digitsValue text) },
      .threshold hwhole (UInt32.toNat_ofNat_of_lt hvalue).symm⟩
  | @territory name t hname => exact ⟨{ standard with territory := t }, .territory hname⟩
  | @repeatRom flag => exact ⟨{ standard with repeatRom := flag }, .repeatRom⟩
  | @logLevel name l hname => exact ⟨{ standard with logLevel := l }, .logLevel hname⟩

/-- Members with keys of their own can be put over the standard settings, as every field is
given once at most. -/
theorem exists_overlays (hkeys : (ms.map Member.key).Nodup)
    (hvalues : ∀ m ∈ ms, ∀ f : Field, m.key = f.key.toList → f.Admits m.value) :
    ∃ s, Overlays ms s := by
  have hfield : ∀ f : Field, ∃ s : Settings,
      (∀ m ∈ ms, m.key = f.key.toList → s.Writes f m.value) ∧
        ((∀ m ∈ ms, m.key ≠ f.key.toList) → s.Agrees standard f) := by
    intro f
    by_cases hnamed : ∃ m ∈ ms, m.key = f.key.toList
    · obtain ⟨m, hm, hkey⟩ := hnamed
      obtain ⟨s, hs⟩ := (hvalues m hm f hkey).exists_writes
      -- no other member has this key
      refine ⟨s, fun m' hm' hkey' => ?_, fun hnone => absurd hkey (hnone m hm)⟩
      rwa [List.inj_on_of_nodup_map hkeys hm' hm (hkey'.trans hkey.symm)]
    · refine ⟨standard, fun m hm hkey => absurd ⟨m, hm, hkey⟩ hnamed, fun _ => ?_⟩
      cases f <;> rfl
  choose field hgiven hrest using hfield
  -- each field is taken from the settings that were found for it
  have hagrees : ∀ f, (field f).Agrees ⟨(field .threshold).threshold,
      (field .territory).territory, (field .repeatRom).repeatRom,
      (field .logLevel).logLevel⟩ f := by
    intro f
    cases f <;> rfl
  exact ⟨_, fun m hm f hkey => (hgiven f m hm hkey).of_agrees (hagrees f),
    fun f hnone => (hagrees f).symm.trans (hrest f hnone)⟩

/-! ### What has been found -/

theorem Field.ofKey?_eq_some {key : List Char} (h : Field.ofKey? key = some f) :
    key = f.key.toList := by
  have hfound := List.find?_some h
  exact (of_decide_eq_true hfound).symm

theorem Field.ofKey?_eq_none {key : List Char} (h : Field.ofKey? key = none) :
    key ≠ f.key.toList := by
  rintro rfl
  rw [Field.ofKey?_key] at h
  cases h

/-- Take a member: with the key of a field it gives the value that this field has in some
settings, and with any other key nothing. -/
def Found.take (s : Settings) (found : Found) (m : Member) : Found :=
  match Field.ofKey? m.key with
  | some f => found.give s f
  | none => found

theorem Found.take_of_key (hkey : m.key = f.key.toList) : found.take s m = found.give s f := by
  rw [take, hkey, Field.ofKey?_key]

theorem Found.take_of_ne (h : ∀ f : Field, m.key ≠ f.key.toList) : found.take s m = found := by
  rw [take]
  split
  · next hkey => exact absurd (Field.ofKey?_eq_some hkey) (h _)
  · rfl

theorem Found.has_take :
    (found.take s m).has f = true ↔ m.key = f.key.toList ∨ found.has f = true := by
  rcases hkey : Field.ofKey? m.key with - | g
  · have hne : m.key ≠ f.key.toList := Field.ofKey?_eq_none hkey
    rw [take_of_ne fun _ => Field.ofKey?_eq_none hkey]
    exact (or_iff_right hne).symm
  · have hiff : m.key = f.key.toList ↔ g = f := by
      constructor
      · intro hf
        rw [hf, Field.ofKey?_key] at hkey
        exact (Option.some.inj hkey).symm
      · rintro rfl
        exact Field.ofKey?_eq_some hkey
    rw [take_of_key (Field.ofKey?_eq_some hkey), has_give, Bool.or_eq_true, decide_eq_true_eq,
      hiff]

theorem Found.has_foldl_take :
    (ms.foldl (take s) found).has f = true ↔
      found.has f = true ∨ ∃ m ∈ ms, m.key = f.key.toList := by
  induction ms generalizing found with
  | nil => simp
  | cons m ms ih =>
    rw [List.foldl_cons, ih, has_take, List.exists_mem_cons_iff, or_comm (a := m.key = _),
      or_assoc]

/-- What has been found are values of some settings. -/
def Found.Keeps (s : Settings) (found : Found) : Prop :=
  ∀ f, found.has f = true → found.settings.Agrees s f

theorem Found.Keeps.give (h : found.Keeps s) (g : Field) : (found.give s g).Keeps s := by
  intro f hf
  by_cases heq : g = f
  · subst heq
    cases g <;> rfl
  · rw [has_give, decide_eq_false heq, Bool.false_or] at hf
    have hagrees := h f hf
    cases g <;> cases f <;> first | exact absurd rfl heq | exact hagrees

theorem Found.Keeps.foldl_take (h : found.Keeps s) (ms : List Member) :
    (ms.foldl (take s) found).Keeps s := by
  induction ms generalizing found with
  | nil => exact h
  | cons m ms ih =>
    refine ih ?_
    rw [take]
    split
    · exact h.give _
    · exact h

theorem Found.agrees_standard (h : found.has f = false) : found.settings.Agrees standard f := by
  cases f <;>
    exact congrArg (Option.getD · _) (Option.isNone_iff_eq_none.mp (Option.isSome_eq_false_iff.mp h))

/-- **All members taken are the settings that they give.** -/
theorem Overlays.settings_foldl_take (h : Overlays ms s) :
    (ms.foldl (Found.take s) .nothing).settings = s := by
  have hnothing : Found.nothing.Keeps s := by
    intro f hf
    cases f <;> cases hf
  refine eq_of_agrees fun f => ?_
  by_cases hnamed : ∃ m ∈ ms, m.key = f.key.toList
  · exact hnothing.foldl_take ms f (Found.has_foldl_take.mpr (.inr hnamed))
  · have hhas : (ms.foldl (Found.take s) .nothing).has f = false := by
      rw [Bool.eq_false_iff, ne_eq, Found.has_foldl_take, or_iff_left hnamed]
      cases f <;> exact Bool.false_ne_true
    refine (Found.agrees_standard hhas).trans (h.rest f fun m hm hkey => ?_).symm
    exact hnamed ⟨m, hm, hkey⟩

/-! ### Reading members -/

/-- Members that are still to be read agree with what has been found so far.

* `distinct` — their keys are different;
* `writes` — those with the key of a field have its value in the settings;
* `new` — no field that they give has been found. -/
structure Fits (s : Settings) (found : Found) (ms : List Member) : Prop where
  distinct : (ms.map Member.key).Nodup
  writes : ∀ m ∈ ms, ∀ f : Field, m.key = f.key.toList → s.Writes f m.value
  new : ∀ m ∈ ms, ∀ f : Field, m.key = f.key.toList → found.has f = false

theorem Fits.tail (h : s.Fits found (m :: ms)) : s.Fits (found.take s m) ms where
  distinct := (List.nodup_cons.mp h.distinct).2
  writes m' hm' := h.writes m' (List.mem_cons_of_mem m hm')
  new m' hm' f hkey := by
    have hbefore := h.new m' (List.mem_cons_of_mem m hm') f hkey
    have hother : m.key ≠ f.key.toList := fun heq =>
      (List.nodup_cons.mp h.distinct).1 (heq.trans hkey.symm ▸ List.mem_map_of_mem hm')
    rw [Bool.eq_false_iff, ne_eq, Found.has_take, or_iff_right hother, hbefore]
    exact Bool.false_ne_true

/-- A member of no interest is passed over. -/
theorem readMember_of_ne {body b' : List Char} (hne : ∀ f : Field, m.key ≠ f.key.toList)
    (hkey : Spells body m.key) (hb : IsBlanks b) (hb' : IsBlanks b') (hvalue : IsValue m.value)
    (hrest : EndsNumber rest) :
    readMember found (body ++ '"' :: (b ++ ':' :: (b' ++ (m.value ++ rest)))) =
      .ok (found, rest) := by
  have hnone : Field.ofKey? m.key = none := by
    rcases hof : Field.ofKey? m.key with - | f
    · rfl
    · exact absurd (Field.ofKey?_eq_some hof) (hne f)
  rw [readMember, readString_of_spells hkey]
  dsimp only [bind, Except.bind]
  rw [hnone]
  dsimp only
  rw [readColon_append hb]
  dsimp only
  rw [skipValue_append hb' hvalue hrest]

/-- **Any member is read and taken.**  It begins with blanks and a quote, and ends with
blanks that are left. -/
theorem exists_readMember (h : SpellsMember text m) (hfits : s.Fits found (m :: ms)) :
    ∃ b body b', IsBlanks b ∧ IsBlanks b' ∧ text = b ++ '"' :: body ∧
      ∀ rest, EndsNumber rest →
        readMember found (body ++ rest) = .ok (found.take s m, b' ++ rest) := by
  obtain @⟨b₁, body, b₂, b₃, b₄, _, hb₁, hkey, hb₂, hb₃, hvalue, hb₄⟩ := h
  refine ⟨b₁, _, b₄, hb₁, hb₄, rfl, fun rest hrest => ?_⟩
  have hend : EndsNumber (b₄ ++ rest) := endsNumber_blanks hb₄ hrest
  simp only [List.append_assoc, List.cons_append]
  by_cases hfield : ∃ f : Field, m.key = f.key.toList
  · obtain ⟨f, hf⟩ := hfield
    rw [Found.take_of_key hf]
    exact readMember_of_writes (hf ▸ hkey) hb₂ hb₃ (hfits.writes m List.mem_cons_self f hf) hend
      (hfits.new m List.mem_cons_self f hf)
  · rw [not_exists] at hfield
    rw [Found.take_of_ne hfield]
    exact readMember_of_ne hfield hkey hb₂ hb₃ hvalue hend

theorem endsNumber_comma (cs : List Char) : EndsNumber (',' :: cs) :=
  endsNumber_cons (by decide) (by decide)

theorem endsNumber_brace (cs : List Char) : EndsNumber ('\x7d' :: cs) :=
  endsNumber_cons (by decide) (by decide)

/-- Members behind a comma are read and taken, up to the end of the object. -/
theorem readMoreMembers_of_spells (h : SpellsMembers text ms) (hfits : s.Fits found ms)
    (hb : IsBlanks b) {fuel : Nat} (hfuel : text.length < fuel) (rest : List Char) :
    readMoreMembers found fuel (b ++ ',' :: (text ++ '\x7d' :: rest)) =
      .ok (ms.foldl (Found.take s) found, rest) := by
  -- the blanks behind a member are left to the next step, with what has been found by then
  induction h generalizing found b fuel with
  | one hmember =>
    obtain ⟨b₁, body, b₂, hb₁, hb₂, rfl, hread⟩ := exists_readMember hmember hfits
    obtain ⟨fuel, rfl⟩ : ∃ n, fuel = n + 1 + 1 := by
      rw [List.length_append, List.length_cons] at hfuel
      exact ⟨fuel - 2, by omega⟩
    rw [List.append_assoc, List.cons_append]
    refine (readMoreMembers_comma hb hb₁ found _ _).trans ?_
    rw [hread _ (endsNumber_brace rest)]
    exact readMoreMembers_brace hb₂ _ fuel rest
  | @more text texts m ms hmember _ ih =>
    obtain ⟨b₁, body, b₂, hb₁, hb₂, rfl, hread⟩ := exists_readMember hmember hfits
    obtain ⟨fuel, rfl⟩ := Nat.exists_eq_add_one_of_ne_zero (Nat.ne_zero_of_lt hfuel)
    have hshorter : texts.length < fuel := by
      simp only [List.length_append, List.length_cons] at hfuel
      omega
    simp only [List.append_assoc, List.cons_append]
    refine (readMoreMembers_comma hb hb₁ found _ _).trans ?_
    rw [hread _ (endsNumber_comma _)]
    exact ih hfits.tail hb₂ hshorter

/-- An object is read, and all its members are taken. -/
theorem readObject_of_spells (h : SpellsObject text ms) (hfits : s.Fits .nothing ms)
    (rest : List Char) :
    ∃ inner, text = '\x7b' :: inner ∧
      readObject (inner ++ rest) = .ok (ms.foldl (Found.take s) .nothing, rest) := by
  cases h with
  | empty hb =>
    refine ⟨_, rfl, ?_⟩
    rw [List.append_assoc]
    exact readObject_brace hb rest
  | members hmembers =>
    refine ⟨_, rfl, ?_⟩
    rw [List.append_assoc]
    cases hmembers with
    | one hmember =>
      obtain ⟨b₁, body, b₂, hb₁, hb₂, rfl, hread⟩ := exists_readMember hmember hfits
      simp only [List.append_assoc, List.cons_append, List.nil_append]
      refine (readObject_key hb₁ _).trans ?_
      rw [hread _ (endsNumber_brace rest)]
      exact readMoreMembers_brace hb₂ _ _ rest
    | @more text texts m ms hmember hmore =>
      obtain ⟨b₁, body, b₂, hb₁, hb₂, rfl, hread⟩ := exists_readMember hmember hfits
      simp only [List.append_assoc, List.cons_append, List.nil_append]
      refine (readObject_key hb₁ _).trans ?_
      rw [hread _ (endsNumber_comma _)]
      refine readMoreMembers_of_spells hmore hfits.tail hb₂ ?_ rest
      simp only [List.length_append, List.length_cons]
      omega

/-! ### The whole text -/

/-- A text of settings that its members give is read as these. -/
theorem Overlays.parse_eq_ok (h : Overlays ms s) (hkeys : (ms.map Member.key).Nodup)
    {before object after : List Char} (hbefore : IsBlanks before)
    (hobject : SpellsObject object ms) (hafter : IsBlanks after) :
    parse (String.ofList (before ++ object ++ after)) = .ok s := by
  have hfits : s.Fits .nothing ms :=
    ⟨hkeys, h.given, fun _ _ f _ => by cases f <;> rfl⟩
  obtain ⟨inner, rfl, hread⟩ := readObject_of_spells hobject hfits after
  have hsettings : readSettings (before ++ '\x7b' :: inner ++ after) = .ok (s, after) := by
    rw [List.append_assoc, List.cons_append]
    refine (readSettings_brace hbefore _).trans ?_
    rw [hread]
    exact congrArg (fun settings => Except.ok (settings, after)) h.settings_foldl_take
  have hend : skipBlanks after = [] := by
    rw [← List.append_nil after]
    exact skipBlanks_append hafter []
  rw [parse, ofText, String.toList_ofList, ofChars, hsettings]
  dsimp only [bind, Except.bind]
  rw [hend]
  rfl

/-- **A text that gives settings in part is read as the standard settings with these put
over them**: if its members have keys of their own and values that their fields admit,
there are such settings, and they are what is read. -/
theorem parse_eq_ok_iff_overlays {before object after : List Char} {ms : List Member}
    (hbefore : IsBlanks before) (hobject : SpellsObject object ms) (hafter : IsBlanks after)
    (hkeys : (ms.map Member.key).Nodup)
    (hvalues : ∀ m ∈ ms, ∀ f : Field, m.key = f.key.toList → f.Admits m.value) :
    (∃ s, Overlays ms s) ∧
      ∀ s, parse (String.ofList (before ++ object ++ after)) = .ok s ↔ Overlays ms s := by
  have hexists := exists_overlays hkeys hvalues
  refine ⟨hexists, fun s => ⟨fun hs => ?_, fun hs => ?_⟩⟩
  · -- what is read is one thing, and there are settings that are read
    obtain ⟨s', hs'⟩ := hexists
    have hread := hs'.parse_eq_ok hkeys hbefore hobject hafter
    rw [hs] at hread
    obtain rfl : s = s' := Except.ok.inj hread
    exact hs'
  · exact hs.parse_eq_ok hkeys hbefore hobject hafter

/-- The key of a field may have an escape in it, and what is passed over may be a number
without bounds and half of a pair. -/
theorem parse_eq_ok_iff_overlays_flag :
    let ms : List Member := [⟨"x".toList, "[-1e999,\"\\ud800\"]".toList⟩,
      ⟨"mirror_rom".toList, "true".toList⟩]
    let object := "\x7b\"x\": [-1e999,\"\\ud800\"] ,\"\\u006dirror_rom\":true\x7d".toList
    SpellsObject object ms ∧
      parse (String.ofList ([] ++ object ++ ['\n'])) = .ok { standard with repeatRom := true } ∧
      Overlays ms { standard with repeatRom := true } := by
  intro ms object
  have hnumber : IsValue "-1e999".toList :=
    .number (@IsNumber.parts ['-'] ['1'] [] "e999".toList (by decide)
      (.digits (by decide) (by decide)) .none
      (@IsExponent.digits 'e' [] "999".toList (by decide) (by decide) (by decide)))
  have hhalf : IsValue "\"\\ud800\"".toList :=
    .string (@IsBody.code "d800".toList [] 0xD800 (by decide) .empty)
  have hlist : IsValue "[-1e999,\"\\ud800\"]".toList :=
    .list (@IsElements.more [] "-1e999".toList [] _ isBlanks_nil hnumber isBlanks_nil
      (@IsElements.one [] "\"\\ud800\"".toList [] isBlanks_nil hhalf isBlanks_nil))
  have hkey : Spells "\\u006dirror_rom".toList "mirror_rom".toList :=
    @Spells.code "006d".toList "irror_rom".toList "irror_rom".toList 0x6D (by decide) (by decide)
      (by decide) (spells_of_isPlain (by decide))
  have hobject : SpellsObject object ms :=
    .members (.more
      (@SpellsMember.keyed [] "x".toList [] [' '] [' '] ⟨"x".toList, _⟩ isBlanks_nil
        (spells_of_isPlain (by decide)) isBlanks_nil (by decide) hlist (by decide))
      (.one (@SpellsMember.keyed [] "\\u006dirror_rom".toList [] [] []
        ⟨"mirror_rom".toList, "true".toList⟩ isBlanks_nil hkey isBlanks_nil isBlanks_nil .yes
        isBlanks_nil)))
  have hvalues : ∀ m ∈ ms, ∀ f : Field, m.key = f.key.toList → f.Admits m.value := by
    intro m hm f hkey
    rcases List.mem_cons.mp hm with rfl | hm
    · cases f <;> exact absurd hkey (by decide)
    · obtain rfl := List.mem_singleton.mp hm
      cases f with
      | repeatRom => exact @Field.Admits.repeatRom true
      | threshold | territory | logLevel => exact absurd hkey (by decide)
  have hparse : parse (String.ofList ([] ++ object ++ ['\n'])) =
      .ok { standard with repeatRom := true } := by
    rw [parse, ofText, String.toList_ofList]
    rfl
  have hafter : IsBlanks ['\n'] := by decide
  have hkeys : (ms.map Member.key).Nodup := by decide
  have hoverlays := parse_eq_ok_iff_overlays isBlanks_nil hobject hafter hkeys hvalues
  exact ⟨hobject, hparse, (hoverlays.2 _).mp hparse⟩

end PcEngine.Settings
