/-
PcEngine/Proofs/Json/Skip.lean

Values that are passed over.

`skipValue` looks at every character once and remembers where in the value it is and which
brackets are open, while a value of the grammar is built from values.  The two meet in one
statement: from a place where a value must follow, the text of a value leads to the place
behind it, with the same brackets open (`skipFrom_isValue`).  Elements and members have
statements of their own, and the four are proved together, by induction on the grammar.

Blanks may stand before and behind a value, not in it.  What is behind a value must not go
on with a number, as in `EndsNumber`; blanks, commas and closing brackets do not.

Main result: a value of any kind, nested to any depth, is passed over exactly
(`skipValue_append`).
-/
import PcEngine.Json.Value
import PcEngine.Proofs.Json.Tokens

namespace PcEngine.Json

variable {p q : Place} {frames frames' : List Frame} {frame : Frame} {c : Char}
variable {b cs ds text rest : List Char}

/-! ### One character -/

theorem skipFrom_cons (h : endsBefore p frames c = false)
    (hstep : stepValue p frames c cs = .ok (q, frames')) :
    skipFrom p frames (c :: cs) = skipFrom q frames' cs := by
  rw [skipFrom, h, if_neg Bool.false_ne_true, hstep]

theorem endsBefore_of_not_isComplete (h : p.isComplete = false) :
    endsBefore p frames c = false := by
  rw [endsBefore, h, Bool.and_false, Bool.false_and, Bool.false_and]

/-- Where a value is not complete, the next character belongs to it. -/
theorem skipFrom_of_not_isComplete (h : p.isComplete = false)
    (hstep : stepValue p frames c cs = .ok (q, frames')) :
    skipFrom p frames (c :: cs) = skipFrom q frames' cs :=
  skipFrom_cons (endsBefore_of_not_isComplete h) hstep

/-- Where a bracket is open, too. -/
theorem skipFrom_of_open (hstep : stepValue p (frame :: frames) c cs = .ok (q, frames')) :
    skipFrom p (frame :: frames) (c :: cs) = skipFrom q frames' cs :=
  skipFrom_cons rfl hstep

/-! ### Blanks -/

/-- Where blanks may stand. -/
inductive PassesBlanks : Place → List Frame → Prop
  | value {frames : List Frame} : PassesBlanks .value frames
  | listStart {frames : List Frame} : PassesBlanks .listStart frames
  | objectStart {frames : List Frame} : PassesBlanks .objectStart frames
  | key {frames : List Frame} : PassesBlanks .key frames
  | colon {frames : List Frame} : PassesBlanks .colon frames
  | ended {frame : Frame} {frames : List Frame} : PassesBlanks .ended (frame :: frames)

theorem skipFrom_blank (h : PassesBlanks p frames) (hc : isBlank c = true) :
    skipFrom p frames (c :: cs) = skipFrom p frames cs := by
  cases h with
  | value | listStart | objectStart | key | colon =>
    exact skipFrom_of_not_isComplete rfl (if_pos hc)
  | ended => exact skipFrom_of_open (if_pos hc)

theorem skipFrom_blanks (h : PassesBlanks p frames) (hb : IsBlanks b) :
    skipFrom p frames (b ++ rest) = skipFrom p frames rest := by
  induction b with
  | nil => rfl
  | cons c b ih =>
    obtain ⟨hc, hb⟩ := List.forall_mem_cons.mp hb
    exact (skipFrom_blank h hc).trans (ih hb)

theorem endsNumber_cons (hdigit : c.isDigit = false) (hc : c ∉ ['.', 'e', 'E']) :
    EndsNumber (c :: rest) := by
  intro d hd
  obtain rfl : c = d := Option.some.inj hd
  exact ⟨hdigit, hc⟩

/-- Blanks do not go on with a number. -/
theorem endsNumber_blanks (hb : IsBlanks b) (h : EndsNumber rest) : EndsNumber (b ++ rest) := by
  rcases b with - | ⟨c, b⟩
  · exact h
  · have hc : isBlank c = true := hb c List.mem_cons_self
    simp only [isBlank, Bool.or_eq_true, decide_eq_true_eq] at hc
    rcases hc with ((rfl | rfl) | rfl) | rfl <;> exact endsNumber_cons (by decide) (by decide)

/-! ### Constants and strings -/

/-- The letters of a constant. -/
theorem skipFrom_constant {w : Char} {ws : List Char} :
    skipFrom (.constant (w :: ws)) frames (w :: ws ++ rest) = skipFrom .ended frames rest := by
  have hletter : ∀ {w ws cs}, stepValue (.constant (w :: ws)) frames w cs =
      .ok (if ws.isEmpty then .ended else .constant ws, frames) := if_pos rfl
  induction ws generalizing w with
  | nil => exact skipFrom_of_not_isComplete rfl hletter
  | cons v ws ih => exact (skipFrom_of_not_isComplete rfl hletter).trans ih

theorem skipFrom_hexDigits {digits : List Char} {n : Nat} (h : codeOf? digits = some n)
    (ofKey : Bool) :
    skipFrom (.hexDigits 4 ofKey) frames (digits ++ rest) =
      skipFrom (.inString ofKey) frames rest := by
  obtain ⟨a, b, c, d, w, x, y, z, rfl, ha, hb, hc, hd, -⟩ := codeOf?_eq_some h
  have hdigit : ∀ {c : Char} {v left cs}, hexValue? c = some v →
      skipFrom (.hexDigits left ofKey) frames (c :: cs) =
        skipFrom (if 1 < left then .hexDigits (left - 1) ofKey else .inString ofKey)
          frames cs := by
    intro c v left cs hc
    refine skipFrom_of_not_isComplete rfl ?_
    rw [stepValue, hc]
    rfl
  exact (hdigit ha).trans ((hdigit hb).trans ((hdigit hc).trans (hdigit hd)))

/-- A string, or a key, from behind its opening quote.  Half of a pair is good enough
here. -/
theorem skipFrom_isBody (h : IsBody text) (ofKey : Bool) :
    skipFrom (.inString ofKey) frames (text ++ '"' :: rest) =
      skipFrom (if ofKey then .colon else .ended) frames rest := by
  induction h with
  | empty => exact skipFrom_of_not_isComplete rfl rfl
  | plain hplain _ ih =>
    obtain ⟨hquote, hbackslash, hcontrol⟩ := hplain
    refine (skipFrom_of_not_isComplete rfl ?_).trans ih
    rw [stepValue, if_neg hquote, if_neg hbackslash, hcontrol, if_neg Bool.false_ne_true]
  | @letter c d cs hescaped _ ih =>
    have hletter : c ≠ 'u' := by
      rintro rfl
      cases hescaped
    refine (skipFrom_of_not_isComplete rfl rfl).trans
      ((skipFrom_of_not_isComplete rfl ?_).trans ih)
    rw [stepValue, if_neg hletter, hescaped]
    rfl
  | @code digits cs n hcode _ ih =>
    rw [List.cons_append, List.cons_append, List.append_assoc]
    refine (skipFrom_of_not_isComplete rfl rfl).trans
      ((skipFrom_of_not_isComplete rfl ?_).trans ((skipFrom_hexDigits hcode ofKey).trans ih))
    rw [stepValue, if_pos rfl, hasFourBytes_append hcode, if_pos rfl]

/-! ### Numbers -/

/-- A number goes on. -/
theorem skipFrom_of_continues (h : continueNumber p c = some q) :
    skipFrom p frames (c :: cs) = skipFrom q frames cs := by
  have hends : endsBefore p frames c = false := by
    rw [endsBefore, h, Option.isNone_some, Bool.and_false, Bool.false_and]
  refine skipFrom_cons hends ?_
  cases p <;> first | cases h | simp only [stepValue, h]

/-- Places in a number where any digits may follow. -/
def Place.takesDigits (p : Place) : Prop := p = .digits ∨ p = .fraction ∨ p = .exponentDigits

theorem ne_of_isDigit (hc : c.isDigit = true) {d : Char} (hd : d.isDigit = false) : c ≠ d := by
  rintro rfl
  rw [hc] at hd
  cases hd

theorem continueNumber_digit (hp : p.takesDigits) (hc : c.isDigit = true) :
    continueNumber p c = some p := by
  have hpoint : c ≠ '.' := ne_of_isDigit hc rfl
  have hlower : c ≠ 'e' := ne_of_isDigit hc rfl
  have hupper : c ≠ 'E' := ne_of_isDigit hc rfl
  rcases hp with rfl | rfl | rfl <;> simp [continueNumber, hc, hpoint, hlower, hupper]

theorem skipFrom_digits (hp : p.takesDigits) (hds : ∀ c ∈ ds, c.isDigit = true) :
    skipFrom p frames (ds ++ rest) = skipFrom p frames rest := by
  induction ds with
  | nil => rfl
  | cons c ds ih =>
    obtain ⟨hc, hds⟩ := List.forall_mem_cons.mp hds
    exact (skipFrom_of_continues (continueNumber_digit hp hc)).trans (ih hds)

/-- Digits where there must be one. -/
theorem skipFrom_isDigits (h : IsDigits ds) (hp : p.isComplete = false) (hq : q.takesDigits)
    (hstep : ∀ c cs, c.isDigit = true → stepValue p frames c cs = .ok (q, frames)) :
    skipFrom p frames (ds ++ rest) = skipFrom q frames rest := by
  obtain ⟨hne, hds⟩ := h
  rcases ds with - | ⟨c, ds⟩
  · exact absurd rfl hne
  · obtain ⟨hc, hds⟩ := List.forall_mem_cons.mp hds
    exact (skipFrom_of_not_isComplete hp (hstep c _ hc)).trans (skipFrom_digits hq hds)

theorem startValue_digit (hc : c.isDigit = true) (hzero : c ≠ '0') :
    startValue frames c = .ok (.digits, frames) := by
  unfold startValue
  rw [isBlank_of_isDigit hc, if_neg Bool.false_ne_true]
  split <;> first | exact absurd rfl hzero | cases hc | exact if_pos hc

/-- A whole number leads to where a fraction or an exponent may follow. -/
theorem skipFrom_isWhole (hp : p = .value ∨ p = .sign) (h : IsWhole text)
    (frames : List Frame) (rest : List Char) :
    ∃ q, (q = .zero ∨ q = .digits) ∧
      skipFrom p frames (text ++ rest) = skipFrom q frames rest := by
  have hincomplete : p.isComplete = false := by rcases hp with rfl | rfl <;> rfl
  cases h with
  | zero =>
    refine ⟨.zero, .inl rfl, skipFrom_of_not_isComplete hincomplete ?_⟩
    rcases hp with rfl | rfl <;> rfl
  | @digits c cs hzero hdigits =>
    obtain ⟨hc, hcs⟩ := List.forall_mem_cons.mp hdigits.2
    refine ⟨.digits, .inr rfl, (skipFrom_of_not_isComplete hincomplete ?_).trans
      (skipFrom_digits (.inl rfl) hcs)⟩
    rcases hp with rfl | rfl
    · exact startValue_digit hc hzero
    · rw [stepValue, if_neg hzero, if_pos hc]

theorem skipFrom_isFraction (hp : p = .zero ∨ p = .digits) (h : IsFraction text)
    (frames : List Frame) (rest : List Char) :
    ∃ q, (q = .zero ∨ q = .digits ∨ q = .fraction) ∧
      skipFrom p frames (text ++ rest) = skipFrom q frames rest := by
  cases h with
  | none => exact ⟨p, hp.imp_right .inl, rfl⟩
  | digits hdigits =>
    have hpoint : continueNumber p '.' = some .point := by rcases hp with rfl | rfl <;> rfl
    refine ⟨.fraction, .inr (.inr rfl), (skipFrom_of_continues hpoint).trans ?_⟩
    exact skipFrom_isDigits hdigits rfl (.inr (.inl rfl)) fun c cs hc => if_pos hc

/-- Places at which a number may end. -/
def Place.mayEndNumber (p : Place) : Prop :=
  p = .zero ∨ p = .digits ∨ p = .fraction ∨ p = .exponentDigits

theorem stepValue_exponent (hc : c.isDigit = true) :
    stepValue .exponent frames c cs = .ok (.exponentDigits, frames) := by
  have hplus : c ≠ '+' := ne_of_isDigit hc rfl
  have hminus : c ≠ '-' := ne_of_isDigit hc rfl
  rw [stepValue, decide_eq_false hplus, decide_eq_false hminus, Bool.or_false,
    if_neg Bool.false_ne_true, if_pos hc]

theorem skipFrom_isExponent (hp : p = .zero ∨ p = .digits ∨ p = .fraction)
    (h : IsExponent text) (frames : List Frame) (rest : List Char) :
    ∃ q, q.mayEndNumber ∧ skipFrom p frames (text ++ rest) = skipFrom q frames rest := by
  cases h with
  | none => exact ⟨p, hp.imp_right (.imp_right .inl), rfl⟩
  | @digits letter sign cs hletter hsign hdigits =>
    have hexponent : continueNumber p letter = some .exponent := by
      simp only [List.mem_cons, List.not_mem_nil, or_false] at hletter
      rcases hp with rfl | rfl | rfl <;> rcases hletter with rfl | rfl <;> rfl
    have hend : Place.takesDigits .exponentDigits := .inr (.inr rfl)
    have hbehind : skipFrom .exponentSign frames (cs ++ rest) =
        skipFrom .exponentDigits frames rest :=
      skipFrom_isDigits hdigits rfl hend fun c cs hc => if_pos hc
    refine ⟨.exponentDigits, .inr (.inr (.inr rfl)), (skipFrom_of_continues hexponent).trans ?_⟩
    show skipFrom .exponent frames ((sign ++ cs) ++ rest) = _
    rw [List.append_assoc]
    simp only [List.mem_cons, List.not_mem_nil, or_false] at hsign
    -- the digit that there must be stands here, or behind the sign
    rcases hsign with rfl | rfl | rfl
    · exact skipFrom_isDigits hdigits rfl hend fun c cs => stepValue_exponent
    · exact (skipFrom_of_not_isComplete rfl rfl).trans hbehind
    · exact (skipFrom_of_not_isComplete rfl rfl).trans hbehind

/-- What does not go on with a number is left to what may follow a value. -/
theorem skipFrom_of_mayEndNumber (hp : p.mayEndNumber) (hrest : EndsNumber rest) :
    skipFrom p frames rest = skipFrom .ended frames rest := by
  rcases rest with - | ⟨c, cs⟩
  · rcases hp with rfl | rfl | rfl | rfl <;> rfl
  · obtain ⟨hdigit, hc⟩ := hrest c rfl
    simp only [List.mem_cons, List.not_mem_nil, or_false, not_or] at hc
    have hnone : continueNumber p c = none := by
      rcases hp with rfl | rfl | rfl | rfl <;> simp [continueNumber, hdigit, hc]
    have hends : endsBefore p frames c = endsBefore .ended frames c := by
      have hended : continueNumber .ended c = none := rfl
      rcases hp with rfl | rfl | rfl | rfl <;>
        simp [endsBefore, hnone, hended, hdigit, Place.isComplete]
    have hstep : stepValue p frames c cs = stepValue .ended frames c cs := by
      rcases hp with rfl | rfl | rfl | rfl <;> simp [stepValue, hnone, hdigit]
    rw [skipFrom, skipFrom, hends, hstep]

theorem skipFrom_isNumber (h : IsNumber text) (hrest : EndsNumber rest) :
    skipFrom .value frames (text ++ rest) = skipFrom .ended frames rest := by
  obtain @⟨sign, whole, fraction, exponent, hsign, hwhole, hfraction, hexponent⟩ := h
  -- the four parts are passed one after the other, each from the place the last one led to
  obtain ⟨p, hp, hsign⟩ : ∃ p, (p = .value ∨ p = .sign) ∧ ∀ cs,
      skipFrom .value frames (sign ++ cs) = skipFrom p frames cs := by
    simp only [List.mem_cons, List.not_mem_nil, or_false] at hsign
    rcases hsign with rfl | rfl
    · exact ⟨.value, .inl rfl, fun cs => rfl⟩
    · exact ⟨.sign, .inr rfl, fun cs => skipFrom_of_not_isComplete rfl rfl⟩
  obtain ⟨q, hq, hwhole⟩ := skipFrom_isWhole hp hwhole frames
    (fraction ++ (exponent ++ rest))
  obtain ⟨r, hr, hfraction⟩ := skipFrom_isFraction hq hfraction frames
    (exponent ++ rest)
  obtain ⟨last, hlast, hexponent⟩ := skipFrom_isExponent hr hexponent frames rest
  rw [List.append_assoc, List.append_assoc, List.append_assoc, hsign, hwhole, hfraction,
    hexponent, skipFrom_of_mayEndNumber hlast hrest]

/-! ### Where a value begins -/

theorem isNumber_eq_cons (h : IsNumber text) :
    ∃ c cs, text = c :: cs ∧ (c = '-' ∨ c.isDigit = true) := by
  obtain @⟨sign, whole, fraction, exponent, hsign, hwhole, -, -⟩ := h
  simp only [List.mem_cons, List.not_mem_nil, or_false] at hsign
  rcases hsign with rfl | rfl
  · cases hwhole with
    | zero => exact ⟨'0', _, rfl, .inr rfl⟩
    | @digits c cs _ hdigits => exact ⟨c, _, rfl, .inr (hdigits.2 c List.mem_cons_self)⟩
  · exact ⟨'-', _, rfl, .inl rfl⟩

/-- A value begins with neither a blank nor a closing bracket. -/
theorem isValue_eq_cons (h : IsValue text) :
    ∃ c cs, text = c :: cs ∧ isBlank c = false ∧ c ≠ ']' := by
  cases h with
  | number hnumber =>
    obtain ⟨c, cs, rfl, rfl | hc⟩ := isNumber_eq_cons hnumber
    · exact ⟨'-', cs, rfl, by decide⟩
    · exact ⟨c, cs, rfl, isBlank_of_isDigit hc, ne_of_isDigit hc rfl⟩
  | null | yes | no | string | emptyList | list | emptyObject | object =>
    exact ⟨_, _, rfl, by decide⟩

/-- Behind an opening bracket, a value is read as anywhere. -/
theorem skipFrom_start (hp : p = .value ∨ p = .listStart) (h : IsValue text)
    (frames : List Frame) (rest : List Char) :
    skipFrom p frames (text ++ rest) = skipFrom .value frames (text ++ rest) := by
  rcases hp with rfl | rfl
  · rfl
  · obtain ⟨c, cs, rfl, hblank, hbracket⟩ := isValue_eq_cons h
    have hstep : stepValue .listStart frames c (cs ++ rest) =
        stepValue .value frames c (cs ++ rest) := by
      show (if isBlank c then _ else if c = ']' then _ else startValue frames c) =
        startValue frames c
      rw [hblank, if_neg Bool.false_ne_true, if_neg hbracket]
    rw [List.cons_append, skipFrom, skipFrom, hstep, endsBefore_of_not_isComplete rfl,
      endsBefore_of_not_isComplete rfl]

/-- Behind an opening brace, a key is read as anywhere. -/
theorem skipFrom_quote (hp : p = .key ∨ p = .objectStart) :
    skipFrom p frames ('"' :: cs) = skipFrom (.inString true) frames cs := by
  rcases hp with rfl | rfl <;> exact skipFrom_of_not_isComplete rfl rfl

/-! ### Values of any kind

A value begins with the same brackets open that it ends with, so `frames` may be any list,
and the induction goes into a bracket with one more on it.  Behind an element or a member
its bracket is open, so the next character is always taken (`skipFrom_of_open`).
-/

mutual

/-- **The text of a value leads behind the value.** -/
theorem skipFrom_isValue {text rest : List Char} (frames : List Frame)
    (hrest : EndsNumber rest) : IsValue text →
    skipFrom .value frames (text ++ rest) = skipFrom .ended frames rest
  | .null => (skipFrom_of_not_isComplete rfl rfl).trans skipFrom_constant
  | .yes => (skipFrom_of_not_isComplete rfl rfl).trans skipFrom_constant
  | .no => (skipFrom_of_not_isComplete rfl rfl).trans skipFrom_constant
  | .number h => skipFrom_isNumber h hrest
  | .string h => by
    rw [List.cons_append, List.append_assoc]
    exact (skipFrom_of_not_isComplete rfl rfl).trans (skipFrom_isBody h false)
  | .emptyList hb => by
    rw [List.cons_append, List.append_assoc]
    exact (skipFrom_of_not_isComplete rfl rfl).trans ((skipFrom_blanks .listStart hb).trans
      (skipFrom_of_not_isComplete rfl rfl))
  | .list h => by
    have hbracket : EndsNumber (']' :: rest) := endsNumber_cons (by decide) (by decide)
    rw [List.cons_append, List.append_assoc]
    exact (skipFrom_of_not_isComplete rfl rfl).trans
      ((skipFrom_isElements frames (.inr rfl) hbracket h).trans (skipFrom_of_open rfl))
  | .emptyObject hb => by
    rw [List.cons_append, List.append_assoc]
    exact (skipFrom_of_not_isComplete rfl rfl).trans ((skipFrom_blanks .objectStart hb).trans
      (skipFrom_of_not_isComplete rfl rfl))
  | .object h => by
    have hbrace : EndsNumber ('\x7d' :: rest) := endsNumber_cons (by decide) (by decide)
    rw [List.cons_append, List.append_assoc]
    exact (skipFrom_of_not_isComplete rfl rfl).trans
      ((skipFrom_isMembers frames (.inr rfl) hbrace h).trans (skipFrom_of_open rfl))

/-- So do elements, from the first one on or from behind a comma. -/
theorem skipFrom_isElements {p : Place} {text rest : List Char} (frames : List Frame)
    (hp : p = .value ∨ p = .listStart) (hrest : EndsNumber rest) : IsElements text →
    skipFrom p (.list :: frames) (text ++ rest) = skipFrom .ended (.list :: frames) rest
  | .one hb₁ h hb₂ => by
    have hblanks : PassesBlanks p (.list :: frames) := by
      rcases hp with rfl | rfl <;> constructor
    rw [List.append_assoc, List.append_assoc, skipFrom_blanks hblanks hb₁, skipFrom_start hp h,
      skipFrom_isValue _ (endsNumber_blanks hb₂ hrest) h, skipFrom_blanks .ended hb₂]
  | @IsElements.more _ _ _ cs hb₁ h hb₂ hmore => by
    have hblanks : PassesBlanks p (.list :: frames) := by
      rcases hp with rfl | rfl <;> constructor
    have hcomma : EndsNumber (',' :: (cs ++ rest)) := endsNumber_cons (by decide) (by decide)
    rw [List.append_assoc, List.append_assoc, List.append_assoc, List.cons_append,
      skipFrom_blanks hblanks hb₁, skipFrom_start hp h,
      skipFrom_isValue _ (endsNumber_blanks hb₂ hcomma) h, skipFrom_blanks .ended hb₂]
    exact (skipFrom_of_open rfl).trans (skipFrom_isElements frames (.inl rfl) hrest hmore)

/-- So does a member, the first one or one behind a comma. -/
theorem skipFrom_isMember {p : Place} {text rest : List Char} (frames : List Frame)
    (hp : p = .key ∨ p = .objectStart) (hrest : EndsNumber rest) : IsMember text →
    skipFrom p (.object :: frames) (text ++ rest) = skipFrom .ended (.object :: frames) rest
  | .keyed hb₁ hkey hb₂ hb₃ h hb₄ => by
    have hblanks : PassesBlanks p (.object :: frames) := by
      rcases hp with rfl | rfl <;> constructor
    simp only [List.append_assoc, List.cons_append]
    -- blanks, key, blanks, colon, blanks, value, blanks
    rw [skipFrom_blanks hblanks hb₁, skipFrom_quote hp, skipFrom_isBody hkey true, if_pos rfl,
      skipFrom_blanks .colon hb₂]
    refine (skipFrom_of_not_isComplete rfl rfl).trans ?_
    rw [skipFrom_blanks .value hb₃, skipFrom_isValue _ (endsNumber_blanks hb₄ hrest) h,
      skipFrom_blanks .ended hb₄]

/-- So do members, from the first one on or from behind a comma. -/
theorem skipFrom_isMembers {p : Place} {text rest : List Char} (frames : List Frame)
    (hp : p = .key ∨ p = .objectStart) (hrest : EndsNumber rest) : IsMembers text →
    skipFrom p (.object :: frames) (text ++ rest) = skipFrom .ended (.object :: frames) rest
  | .one h => skipFrom_isMember frames hp hrest h
  | @IsMembers.more _ ds h hmore => by
    have hcomma : EndsNumber (',' :: (ds ++ rest)) := endsNumber_cons (by decide) (by decide)
    rw [List.append_assoc, List.cons_append, skipFrom_isMember frames hp hcomma h]
    exact (skipFrom_of_open rfl).trans (skipFrom_isMembers frames (.inl rfl) hrest hmore)

end

/-- **A value of any kind is passed over**, with the blanks before it, and nothing behind
it is. -/
theorem skipValue_append (hb : IsBlanks b) (h : IsValue text) (hrest : EndsNumber rest) :
    skipValue (b ++ (text ++ rest)) = .ok rest := by
  rw [skipValue, skipFrom_blanks .value hb, skipFrom_isValue [] hrest h]
  rcases rest with - | ⟨c, cs⟩ <;> rfl

end PcEngine.Json
