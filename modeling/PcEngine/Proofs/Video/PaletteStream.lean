/-
PcEngine/Proofs/Video/PaletteStream.lean

Colours streamed into the palette can be read back.

The palette is written by bytes, the low one of a colour and then the high one, and
moves on to the next entry with the high byte, from the last entry to the first.  A
colour has nine bits, so of a word the low nine are kept (`colour`), and the high byte
is read with seven ones above the ninth bit (`colourBytes`).

Two things are told apart: which entry is selected (`atIndex`), and what a stream of
words does to the entries (`storeWords`), which has nothing to do with the index any
more.  A stream selects an entry, and then each word stores its colour and moves on
(`run_upload`); reading moves on alone (`run_readback`).  Both halves of an entry are
written, so nothing is asked of what was there before.

A stream that is longer than the palette comes round and writes over itself, as the entries
are a ring (`entries_storeWords`); an entry is left with the last word that hits it
(`entry_storeWords_of_last`).  A stream that is not
longer hits no entry twice, and comes back as it went in.

Main result: `streamsBack`, for any palette.
-/
import PcEngine.Proofs.Checked.Palette
import PcEngine.Proofs.History
import PcEngine.Proofs.Ring

namespace PcEngine.Video

/-! ### Colours -/

/-- The colour in a word: its low nine bits. -/
def colour (w : Word) : Word := Word.ofBytes (Word.low w) (Word.high w % 2)

/-- The bytes that are read of the colour in a word. -/
def colourBytes (w : Word) : List Byte := [Word.low w, if Word.bit w 8 then 0xFF else 0xFE]

theorem toNat_colour (w : Word) : (colour w).toNat = w.toNat % paletteSize := by
  have htwo : (2 : Byte).toNat = 2 := rfl
  rw [colour, Word.toNat_ofBytes, UInt8.toNat_mod, Word.toNat_high, Word.toNat_low, htwo]
  simp only [paletteSize]
  omega

/-- The bits above the ninth read as ones. -/
theorem high_colour_or (w : Word) :
    Word.high (colour w) ||| 0xFE = if Word.bit w 8 then 0xFF else 0xFE := by
  have hninth : (Word.high w % 2).toNat = w.toNat / 2 ^ 8 % 2 := by
    rw [UInt8.toNat_mod, Word.toNat_high]
    rfl
  rw [colour, Word.high_ofBytes, Word.bit, Nat.testBit_eq_decide_div_mod_eq, ← hninth]
  rcases Nat.mod_two_eq_zero_or_one (w.toNat / 2 ^ 8) with h | h
  · rw [h] at hninth
    rw [show Word.high w % 2 = 0 from UInt8.toNat_inj.mp hninth]
    rfl
  · rw [h] at hninth
    rw [show Word.high w % 2 = 1 from UInt8.toNat_inj.mp hninth]
    rfl

namespace Palette

variable {p : Palette} {c : Word} {s i j n : Nat} {words : List Word}

/-! ### Entries and the index -/

/-- The palette with entry `n` selected, counted modulo 512. -/
def atIndex (p : Palette) (n : Nat) : Palette :=
  { p with index := UInt16.ofNat (n % paletteSize) }

/-- The palette with another colour in an entry. -/
def setEntry (p : Palette) (i : Fin paletteSize) (c : Word) : Palette :=
  { p with entries := p.entries.set i.val c i.isLt }

theorem position_eq_iff : position i = position j ↔ i % paletteSize = j % paletteSize := by
  rw [Fin.ext_iff]
  rfl

theorem entry_congr (h : position i = position j) : p.entry i = p.entry j :=
  congrArg (fun k : Fin paletteSize => p.entries[k]) h

theorem toNat_index_atIndex (p : Palette) (n : Nat) :
    (p.atIndex n).index.toNat = n % paletteSize := by
  have hlt : n % paletteSize < paletteSize := Nat.mod_lt _ (by decide)
  rw [atIndex, UInt16.toNat_ofNat']
  exact Nat.mod_eq_of_lt (Nat.lt_trans hlt (by decide))

/-- Selecting an entry selects the entry of that number. -/
theorem position_atIndex (p : Palette) (n : Nat) :
    position (p.atIndex n).index.toNat = position n := by
  rw [position_eq_iff, toNat_index_atIndex, Nat.mod_mod]

theorem current_atIndex (p : Palette) (n : Nat) : (p.atIndex n).current = p.entry n :=
  entry_congr (position_atIndex p n)

theorem setCurrent_atIndex (p : Palette) (n : Nat) (c : Word) :
    (p.atIndex n).setCurrent c = (p.setEntry (position n) c).atIndex n := by
  show ((p.atIndex n).setEntry (position (p.atIndex n).index.toNat) c) = _
  rw [position_atIndex]
  rfl

theorem advance_atIndex (p : Palette) (n : Nat) : (p.atIndex n).advance = p.atIndex (n + 1) := by
  rw [advance, toNat_index_atIndex, Nat.mod_add_mod]
  rfl

theorem current_setCurrent (p : Palette) (c : Word) : (p.setCurrent c).current = c :=
  (entry_setCurrent p c p.index.toNat).trans (if_pos rfl)

theorem setCurrent_setCurrent (p : Palette) (c d : Word) :
    (p.setCurrent c).setCurrent d = p.setCurrent d := by
  simp only [setCurrent, Vector.set_set]

/-! ### Words stored one after the other -/

/-- Store the colours of words in entries from number `s` on. -/
def storeWords (p : Palette) (s : Nat) : List Word → Palette
  | [] => p
  | w :: words => (p.setEntry (position s) (colour w)).storeWords (s + 1) words

/-- The entries are a ring, and words are written around it. -/
theorem entries_storeWords (p : Palette) (s : Nat) (words : List Word) :
    (p.storeWords s words).entries = writeAround p.entries s (words.map colour) := by
  induction words generalizing p s with
  | nil => rfl
  | cons w words ih =>
    have hset : (p.setEntry (position s) (colour w)).entries =
        p.entries.setIfInBounds (s % paletteSize) (colour w) := by
      refine Vector.ext fun j hj => ?_
      rw [setEntry, Vector.getElem_set, Vector.getElem_setIfInBounds]
      rfl
    rw [storeWords, ih, hset, List.map_cons, writeAround]

/-- Entries that are not hit stay as they are. -/
theorem entry_storeWords_of_ne (h : ∀ i < words.length, position (s + i) ≠ position j) :
    (p.storeWords s words).entry j = p.entry j := by
  have hmiss : ∀ i < (words.map colour).length, (s + i) % paletteSize ≠ j % paletteSize := by
    intro i hi heq
    rw [List.length_map] at hi
    exact h i hi (position_eq_iff.mpr heq)
  have hj : j % paletteSize < paletteSize := (position j).isLt
  show (p.storeWords s words).entries[j % paletteSize] = _
  simp only [entries_storeWords]
  exact getElem_writeAround_of_ne hj hmiss

/-- **An entry is left with the last word that hits it.** -/
theorem entry_storeWords_of_last {w : Word} (hw : words[i]? = some w)
    (hlast : ∀ k, i < k → k < words.length → position (s + k) ≠ position (s + i)) :
    (p.storeWords s words).entry (s + i) = colour w := by
  obtain ⟨hi, rfl⟩ := List.getElem?_eq_some_iff.mp hw
  have hlength : i < (words.map colour).length := by rwa [List.length_map]
  have hlater : ∀ k, i < k → k < (words.map colour).length →
      (s + k) % paletteSize ≠ (s + i) % paletteSize := by
    intro k hik hk heq
    rw [List.length_map] at hk
    exact hlast k hik hk (position_eq_iff.mpr heq)
  have hj : (s + i) % paletteSize < paletteSize := (position (s + i)).isLt
  show (p.storeWords s words).entries[(s + i) % paletteSize] = _
  simp only [entries_storeWords]
  exact (getElem_writeAround_of_last hlength hj rfl hlater).trans (List.getElem_map ..)

/-! ### Streams -/

namespace Op

/-- Select the entry of a number. -/
def aim (s : Word) : List Op := [.writeIndexLow (Word.low s), .writeIndexHigh (Word.high s)]

/-- The bytes of a word, written to the selected entry. -/
def writeWord (w : Word) : List Op := [.writeLow (Word.low w), .writeHigh (Word.high w)]

/-- The bytes of the selected entry. -/
def readWord : List Op := [.readLow, .readHigh]

/-- Stream words into the palette, from an entry on. -/
def upload (s : Word) (words : List Word) : List Op := aim s ++ words.flatMap writeWord

/-- Stream `n` colours out of the palette, from an entry on. -/
def readback (s : Word) (n : Nat) : List Op := aim s ++ (List.replicate n readWord).flatten

theorem reset_notMem_upload (s : Word) (words : List Word) : .reset ∉ upload s words := by
  simp [upload, aim, writeWord]

theorem reset_notMem_readback (s : Word) (n : Nat) : .reset ∉ readback s n := by
  simp [readback, aim, readWord]

end Op

/-- The byte that an operation gives, if it gives one. -/
def given (p : Palette) : Op → List Byte
  | .readLow => [p.readLow]
  | .readHigh => [p.readHigh.1]
  | _ => []

/-- The bytes that operations give, one after the other. -/
def givenBy (p : Palette) (ops : List Op) : List Byte :=
  collect (fun p op => (p.step op).2) given p ops

theorem run_append (p : Palette) (first later : List Op) :
    p.run (first ++ later) = (p.run first).run later :=
  List.foldl_append

theorem givenBy_append (p : Palette) (first later : List Op) :
    p.givenBy (first ++ later) = p.givenBy first ++ (p.run first).givenBy later :=
  collect_append given p first later

/-- Both bytes of the index are written, so it does not matter what it was. -/
theorem run_aim (p : Palette) (s : Word) : p.run (Op.aim s) = p.atIndex s.toNat := by
  have hindex : (p.run (Op.aim s)).index = colour s :=
    Word.setHigh_setLow p.index (Word.low s) (Word.high s % 2)
  have hsame : colour s = UInt16.ofNat (s.toNat % paletteSize) := by
    rw [← toNat_colour, UInt16.ofNat_toNat]
  show { p with index := (p.run (Op.aim s)).index } = p.atIndex s.toNat
  rw [hindex, hsame]
  rfl

/-- So are both bytes of an entry. -/
theorem run_writeWord (p : Palette) (w : Word) :
    p.run (Op.writeWord w) = (p.setCurrent (colour w)).advance := by
  show ((p.setCurrent (Word.setLow p.current (Word.low w))).setCurrent
    (Word.setHigh (p.setCurrent (Word.setLow p.current (Word.low w))).current
      (Word.high w % 2))).advance = _
  rw [setCurrent_setCurrent, current_setCurrent, Word.setHigh_setLow]
  rfl

/-- Words are stored one after the other. -/
theorem run_writeWords (p : Palette) (s : Nat) (words : List Word) :
    (p.atIndex s).run (words.flatMap Op.writeWord) =
      (p.storeWords s words).atIndex (s + words.length) := by
  induction words generalizing p s with
  | nil => rfl
  | cons w words ih =>
    rw [List.flatMap_cons, run_append, run_writeWord, setCurrent_atIndex, advance_atIndex, ih,
      List.length_cons, Nat.add_right_comm s 1]
    rfl

theorem run_upload (p : Palette) (s : Word) (words : List Word) :
    p.run (Op.upload s words) =
      (p.storeWords s.toNat words).atIndex (s.toNat + words.length) := by
  rw [Op.upload, run_append, run_aim, run_writeWords]

/-- Reading moves on, and does nothing else. -/
theorem run_readWords (p : Palette) (s n : Nat) :
    (p.atIndex s).run (List.replicate n Op.readWord).flatten = p.atIndex (s + n) := by
  induction n generalizing s with
  | zero => rfl
  | succ n ih =>
    have hread : (p.atIndex s).run Op.readWord = p.atIndex (s + 1) := advance_atIndex p s
    rw [List.replicate_succ, List.flatten_cons, run_append, hread, ih, Nat.add_right_comm]
    rfl

theorem run_readback (p : Palette) (s : Word) (n : Nat) :
    p.run (Op.readback s n) = p.atIndex (s.toNat + n) := by
  rw [Op.readback, run_append, run_aim, run_readWords]

/-- Entries that hold the colours of words give the bytes of these. -/
theorem givenBy_readWords (h : ∀ i w, words[i]? = some w → p.entry (s + i) = colour w) :
    (p.atIndex s).givenBy (List.replicate words.length Op.readWord).flatten =
      words.flatMap colourBytes := by
  induction words generalizing s with
  | nil => rfl
  | cons w words ih =>
    have hfirst : (p.atIndex s).current = colour w := by
      rw [current_atIndex]
      exact h 0 w rfl
    have hlater : ∀ i v, words[i]? = some v → p.entry (s + 1 + i) = colour v := by
      intro i v hv
      rw [Nat.add_right_comm]
      exact h (i + 1) v hv
    have hbytes : (p.atIndex s).givenBy Op.readWord = colourBytes w := by
      show [Word.low (p.atIndex s).current, Word.high (p.atIndex s).current ||| 0xFE] = _
      rw [hfirst, high_colour_or, colour, Word.low_ofBytes]
      rfl
    have hread : (p.atIndex s).run Op.readWord = p.atIndex (s + 1) := advance_atIndex p s
    rw [List.length_cons, List.replicate_succ, List.flatten_cons, givenBy_append, hbytes, hread,
      ih hlater, List.flatMap_cons]

/-! ### There and back -/

/-- What comes of words that are streamed into a palette from entry `s` on, which makes
`after` of it, and then streamed back, which gives `bytes` and makes `done` of it.

* `last` — an entry holds the low nine bits of the last word that hits it;
* `rest` — entries that are not hit are as they were;
* `index` — the entry behind the last word is selected;
* `bytes` — the bytes read are those of the words, if there are not more of them than
  entries;
* `kept` — reading leaves the palette as it is. -/
structure StreamsBack (before after done : Palette) (s : Nat) (words : List Word)
    (bytes : List Byte) : Prop where
  last : ∀ i (hi : i < words.length), ∀ j < paletteSize, (s + i) % paletteSize = j →
    (∀ k, i < k → k < words.length → (s + k) % paletteSize ≠ j) →
    (after.entry j).toNat = words[i].toNat % paletteSize
  rest : ∀ j < paletteSize, (∀ i < words.length, (s + i) % paletteSize ≠ j) →
    after.entry j = before.entry j
  index : after.index.toNat = (s + words.length) % paletteSize
  bytes : words.length ≤ paletteSize → bytes = words.flatMap colourBytes
  kept : done = after

/-- Words that are not more than there are entries hit no entry twice. -/
theorem position_ne_of_le (hlength : words.length ≤ paletteSize) :
    ∀ k, i < k → k < words.length → position (s + k) ≠ position (s + i) := by
  intro k hik hk
  rw [Ne, position_eq_iff]
  exact around_ne_of_length_le hlength k hik hk

/-- **Colours streamed into a palette are read back.** -/
theorem streamsBack (p : Palette) (s : Word) (words : List Word) :
    StreamsBack p (p.run (Op.upload s words))
      ((p.run (Op.upload s words)).run (Op.readback s words.length)) s.toNat words
      ((p.run (Op.upload s words)).givenBy (Op.readback s words.length)) := by
  rw [run_upload]
  refine ⟨?_, ?_, toNat_index_atIndex _ _, fun hlength => ?_, ?_⟩
  · intro i hi j hj hhit hlast
    have hposition : position j = position (s.toNat + i) := by
      rw [position_eq_iff, hhit, Nat.mod_eq_of_lt hj]
    have hlater : ∀ k, i < k → k < words.length →
        position (s.toNat + k) ≠ position (s.toNat + i) := by
      intro k hik hk
      rw [Ne, position_eq_iff, hhit]
      exact hlast k hik hk
    have hentry : (p.storeWords s.toNat words).entry j = colour words[i] := by
      rw [entry_congr hposition]
      exact entry_storeWords_of_last (List.getElem?_eq_getElem hi) hlater
    rw [← toNat_colour, ← hentry]
    rfl
  · intro j hj hmiss
    refine entry_storeWords_of_ne fun i hi => ?_
    rw [Ne, position_eq_iff, Nat.mod_eq_of_lt hj]
    exact hmiss i hi
  · have haim : Op.readback s words.length =
        Op.aim s ++ (List.replicate words.length Op.readWord).flatten := rfl
    rw [haim, givenBy_append, run_aim]
    refine givenBy_readWords (p := p.storeWords s.toNat words) (s := s.toNat) fun i w hw => ?_
    exact entry_storeWords_of_last hw (position_ne_of_le hlength)
  · rw [run_readback]
    rfl

end Palette

end PcEngine.Video
