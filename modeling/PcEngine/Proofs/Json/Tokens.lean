/-
PcEngine/Proofs/Json/Tokens.lean

What the readers make of texts of the grammar: blanks, strings and whole numbers.

Every lemma is about a text of a form with anything behind it, and says that the reader
takes that text and gives back what is behind.  A number is the exception, as it ends
where it does not go on: what is behind it must not go on with it (`EndsNumber`).

The text behind the opening quote of a string is read as what it spells
(`readString_of_spells`), and a whole number that fits 64 bits as its value
(`readNumber_of_isWhole`).  The decimal digits of a number are a whole number with that
value (`isWhole_toDigits`, `digitsValue_toDigits`).
-/
import Mathlib.Data.List.Induction
import Mathlib.Data.List.TakeDrop
import PcEngine.Json.Grammar

namespace PcEngine.Json

/-! ### Blanks and fixed runs -/

theorem isBlanks_nil : IsBlanks [] := fun _ h => absurd h List.not_mem_nil

theorem skipBlanks_append {b : List Char} (h : IsBlanks b) (cs : List Char) :
    skipBlanks (b ++ cs) = skipBlanks cs :=
  List.dropWhile_append_of_pos h

theorem skipBlanks_cons {c : Char} (h : isBlank c = false) (cs : List Char) :
    skipBlanks (c :: cs) = c :: cs :=
  List.dropWhile_cons_of_neg (Bool.eq_false_iff.mp h)

theorem isBlank_of_isDigit {c : Char} (h : c.isDigit = true) : isBlank c = false := by
  rcases hblank : isBlank c with - | -
  · rfl
  · simp only [isBlank, Bool.or_eq_true, decide_eq_true_eq] at hblank
    rcases hblank with ((rfl | rfl) | rfl) | rfl <;> cases h

/-- A fixed run of characters reads as itself. -/
theorem expect_append (ws rest : List Char) : expect ws (ws ++ rest) = .ok rest := by
  induction ws with
  | nil => rfl
  | cons w ws ih => rw [List.cons_append, expect, if_pos rfl, ih]

/-! ### Strings -/

/-- Four hexadecimal digits and the number that they stand for. -/
theorem codeOf?_eq_some {digits : List Char} {n : Nat} (h : codeOf? digits = some n) :
    ∃ a b c d w x y z, digits = [a, b, c, d] ∧ hexValue? a = some w ∧ hexValue? b = some x ∧
      hexValue? c = some y ∧ hexValue? d = some z ∧ n = ((w * 16 + x) * 16 + y) * 16 + z := by
  rw [codeOf?] at h
  split at h
  · rename_i hlength
    obtain ⟨a, b, c, d, rfl⟩ : ∃ a b c d, digits = [a, b, c, d] :=
      match digits, hlength with
      | [a, b, c, d], _ => ⟨a, b, c, d, rfl⟩
    rcases ha : hexValue? a with - | w
    · simp [ha] at h
    rcases hb : hexValue? b with - | x
    · simp [ha, hb] at h
    rcases hc : hexValue? c with - | y
    · simp [ha, hb, hc] at h
    rcases hd : hexValue? d with - | z
    · simp [ha, hb, hc, hd] at h
    refine ⟨a, b, c, d, w, x, y, z, rfl, ha, hb, hc, hd, ?_⟩
    simpa [ha, hb, hc, hd] using h.symm
  · cases h

/-- Every character takes a byte at least. -/
theorem hasFourBytes_append {digits : List Char} {n : Nat} (h : codeOf? digits = some n)
    (cs : List Char) : hasFourBytes (digits ++ cs) = true := by
  obtain ⟨a, b, c, d, -, -, -, -, rfl, -⟩ := codeOf?_eq_some h
  have ha := a.utf8Size_pos
  have hb := b.utf8Size_pos
  have hc := c.utf8Size_pos
  have hd := d.utf8Size_pos
  show decide (4 ≤ 0 + a.utf8Size + b.utf8Size + c.utf8Size + d.utf8Size) = true
  exact decide_eq_true (by omega)

/-- The digits of a code that is not half of a pair. -/
theorem readStringFrom_digits {digits : List Char} {n : Nat} (h : codeOf? digits = some n)
    (hleading : isLeading n = false) (htrailing : isTrailing n = false) (cs : List Char) :
    readStringFrom (.digits 4 0 none) (digits ++ cs) =
      prepend (Char.ofNat n) (readStringFrom .plain cs) := by
  obtain ⟨a, b, c, d, w, x, y, z, rfl, ha, hb, hc, hd, rfl⟩ := codeOf?_eq_some h
  simp [readStringFrom, ha, hb, hc, hd, hleading, htrailing]

/-- The digits of the first half of a pair. -/
theorem readStringFrom_leading {digits : List Char} {n : Nat} (h : codeOf? digits = some n)
    (hleading : isLeading n = true) (cs : List Char) :
    readStringFrom (.digits 4 0 none) (digits ++ cs) =
      readStringFrom (.pairBackslash n) cs := by
  obtain ⟨a, b, c, d, w, x, y, z, rfl, ha, hb, hc, hd, rfl⟩ := codeOf?_eq_some h
  simp [readStringFrom, ha, hb, hc, hd, hleading]

/-- The digits of the second half of a pair. -/
theorem readStringFrom_trailing {digits : List Char} {m n : Nat} (h : codeOf? digits = some n)
    (htrailing : isTrailing n = true) (cs : List Char) :
    readStringFrom (.digits 4 0 (some m)) (digits ++ cs) =
      prepend (ofPair m n) (readStringFrom .plain cs) := by
  obtain ⟨a, b, c, d, w, x, y, z, rfl, ha, hb, hc, hd, rfl⟩ := codeOf?_eq_some h
  simp [readStringFrom, ha, hb, hc, hd, htrailing]

/-- **A string is read as what it spells.** -/
theorem readString_of_spells {text content : List Char} (h : Spells text content)
    (rest : List Char) : readString (text ++ '"' :: rest) = .ok (content, rest) := by
  show readStringFrom .plain (text ++ '"' :: rest) = .ok (content, rest)
  induction h with
  | empty => rfl
  | plain hplain _ ih =>
    obtain ⟨hquote, hbackslash, hcontrol⟩ := hplain
    rw [List.cons_append, readStringFrom, if_neg hquote, if_neg hbackslash, hcontrol,
      if_neg Bool.false_ne_true, ih]
    rfl
  | @letter c d cs ds hescaped _ ih =>
    have hletter : c ≠ 'u' := by
      rintro rfl
      cases hescaped
    rw [List.cons_append, List.cons_append, readStringFrom, if_neg (by decide), if_pos rfl,
      readStringFrom, if_neg hletter, hescaped]
    show prepend d (readStringFrom .plain (cs ++ '"' :: rest)) = _
    rw [ih]
    rfl
  | @code digits cs ds n hcode hleading htrailing _ ih =>
    rw [List.cons_append, List.cons_append, List.append_assoc, readStringFrom,
      if_neg (by decide), if_pos rfl, readStringFrom, if_pos rfl, hasFourBytes_append hcode,
      if_pos rfl, readStringFrom_digits hcode hleading htrailing, ih]
    rfl
  | @pair first second cs ds m n hfirst hleading hsecond htrailing _ ih =>
    simp only [List.cons_append, List.append_assoc]
    rw [readStringFrom, if_neg (by decide), if_pos rfl, readStringFrom, if_pos rfl,
      hasFourBytes_append hfirst, if_pos rfl, readStringFrom_leading hfirst hleading,
      readStringFrom, if_pos rfl, readStringFrom, if_pos rfl, hasFourBytes_append hsecond,
      if_pos rfl, readStringFrom_trailing hsecond htrailing, ih]
    rfl

/-- Plain characters spell themselves. -/
theorem spells_of_isPlain {text : List Char} (h : text.all (IsPlain ·) = true) :
    Spells text text := by
  induction text with
  | nil => exact .empty
  | cons c cs ih =>
    rw [List.all_cons, Bool.and_eq_true, decide_eq_true_eq] at h
    exact .plain h.1 (ih h.2)

/-! ### Whole numbers -/

/-- What stands here does not go on with a number. -/
def EndsNumber (rest : List Char) : Prop :=
  ∀ c ∈ rest.head?, c.isDigit = false ∧ c ∉ ['.', 'e', 'E']

/-- Digits up to something that is no digit. -/
theorem spanDigits_append {ds rest : List Char} (hds : ∀ c ∈ ds, c.isDigit)
    (hrest : EndsNumber rest) : spanDigits (ds ++ rest) = (ds, rest) := by
  rw [spanDigits, List.span_eq_takeWhile_dropWhile, List.takeWhile_append_of_pos hds,
    List.dropWhile_append_of_pos hds]
  rcases rest with - | ⟨c, cs⟩
  · simp
  · have hc : ¬c.isDigit = true := Bool.eq_false_iff.mp (hrest c rfl).1
    rw [List.takeWhile_cons_of_neg hc, List.dropWhile_cons_of_neg hc, List.append_nil]

theorem digitsValue_concat (ds : List Char) (c : Char) :
    digitsValue (ds ++ [c]) = digitsValue ds * 10 + digitValue c :=
  List.foldl_append

/-- Digits that fit 64 bits are all of them the significand. -/
theorem wholePart_of_lt {ds : List Char} (h : digitsValue ds < wordLimit) :
    wholePart ds = (digitsValue ds, 0) := by
  induction ds using List.reverseRecOn with
  | nil => rfl
  | append_singleton ds c ih =>
    rw [digitsValue_concat] at h ⊢
    have hbefore := ih (by omega)
    rw [wholePart] at hbefore ⊢
    rw [List.foldl_append, hbefore]
    exact if_pos ⟨rfl, h⟩

/-- A whole number that fits 64 bits is read as its value. -/
theorem readNumber_of_isWhole {ds rest : List Char} (h : IsWhole ds)
    (hvalue : digitsValue ds < wordLimit) (hrest : EndsNumber rest) :
    readNumber false (ds ++ rest) = .ok (.natural (digitsValue ds), rest) := by
  have hspan : spanDigits (ds ++ rest) = (ds, rest) := by
    cases h with
    | zero => exact spanDigits_append (List.forall_mem_singleton.mpr rfl) hrest
    | digits _ hds => exact spanDigits_append hds.2 hrest
  rw [readNumber, hspan]
  split
  · rename_i heq
    obtain ⟨rfl, -⟩ := Prod.mk.inj heq
    cases h
  · rename_i heq
    obtain ⟨rfl, -⟩ := Prod.mk.inj heq
    cases h with
    | digits hfirst => exact absurd rfl hfirst
  · rename_i heq
    obtain ⟨rfl, rfl⟩ := Prod.mk.inj heq
    rw [wholePart_of_lt hvalue]
    dsimp only
    split
    · exact absurd (by decide) (hrest _ rfl).2
    · exact absurd (by decide) (hrest _ rfl).2
    · exact absurd (by decide) (hrest _ rfl).2
    · rfl

/-- The value of digits, as the library works it out. -/
theorem digitsValue_eq_ofDigitChars (ds : List Char) :
    digitsValue ds = Nat.ofDigitChars 10 ds 0 := by
  rw [Nat.ofDigitChars_eq_foldl, digitsValue]
  simp only [digitValue, Nat.mul_comm 10]
  rfl

theorem digitsValue_toDigits (n : Nat) : digitsValue (Nat.toDigits 10 n) = n := by
  rw [digitsValue_eq_ofDigitChars, Nat.ofDigitChars_ten_toDigits]

/-- The digits of a number have no leading zero. -/
theorem toDigits_eq_cons {n : Nat} (h : n ≠ 0) :
    ∃ c cs, Nat.toDigits 10 n = c :: cs ∧ c ≠ '0' := by
  induction n using Nat.strongRecOn with
  | ind n ih =>
    rcases Nat.lt_or_ge n 10 with hone | hmore
    · refine ⟨n.digitChar, [], Nat.toDigits_of_lt_base hone, ?_⟩
      intro hzero
      have hvalue := Nat.toNat_digitChar_of_lt_ten hone
      rw [hzero] at hvalue
      exact h (Nat.add_left_cancel hvalue).symm
    · obtain ⟨c, cs, heq, hc⟩ := ih (n / 10) (by omega) (by omega)
      refine ⟨c, cs ++ [(n % 10).digitChar], ?_, hc⟩
      rw [Nat.toDigits_of_base_le (by decide) hmore, heq, List.cons_append]

theorem isWhole_toDigits (n : Nat) : IsWhole (Nat.toDigits 10 n) := by
  by_cases h : n = 0
  · rw [h, Nat.toDigits_zero]
    exact .zero
  · obtain ⟨c, cs, heq, hc⟩ := toDigits_eq_cons h
    have hdigits : ∀ d ∈ Nat.toDigits 10 n, d.isDigit := fun d =>
      Nat.isDigit_of_mem_toDigits (by decide) (Nat.le_refl 10)
    rw [heq] at hdigits ⊢
    exact .digits hc ⟨List.cons_ne_nil c cs, hdigits⟩

end PcEngine.Json
