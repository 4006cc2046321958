/-
PcEngine/Json/Grammar.lean

JSON, stated apart from everything that reads it.

A form is a predicate on the whole of a text: `IsNumber`, `IsBody` (what stands
between the quotes of a string), `IsValue`.  No form has blanks around it;
where blanks may stand inside a form, its rule says so.

`Spells text content` says that a body stands for some characters.  Not every
body does: a numeric escape may be half of a pair whose other half is missing,
which is good enough for a value that nobody looks at.

`SpellsObject text ms` says which members an object has, in order.  Their keys
are spelled, and their values stand as they are written.
-/
import PcEngine.Json.Escape
import PcEngine.Json.Number

namespace PcEngine.Json

/-! ### Blanks and digits -/

/-- What may stand between tokens. -/
def IsBlanks (cs : List Char) : Prop := ∀ c ∈ cs, isBlank c

instance : DecidablePred IsBlanks := fun cs => List.decidableBAll (fun c => isBlank c = true) cs

/-- One digit or more. -/
def IsDigits (cs : List Char) : Prop := cs ≠ [] ∧ ∀ c ∈ cs, c.isDigit

instance : DecidablePred IsDigits := fun cs =>
  @instDecidableAnd _ _ inferInstance (List.decidableBAll (fun c => c.isDigit = true) cs)

/-- The number that digits stand for. -/
def digitsValue (cs : List Char) : Nat := cs.foldl (fun n c => n * 10 + digitValue c) 0

/-! ### Numbers -/

/-- A whole number without sign; it has no leading zero. -/
inductive IsWhole : List Char → Prop
  | zero : IsWhole ['0']
  | digits {c : Char} {cs : List Char} :
    c ≠ '0' → IsDigits (c :: cs) → IsWhole (c :: cs)

/-- A fraction with its point, or nothing. -/
inductive IsFraction : List Char → Prop
  | none : IsFraction []
  | digits {cs : List Char} : IsDigits cs → IsFraction ('.' :: cs)

/-- An exponent with its letter, or nothing. -/
inductive IsExponent : List Char → Prop
  | none : IsExponent []
  | digits {letter : Char} {sign cs : List Char} :
    letter ∈ ['e', 'E'] → sign ∈ [[], ['+'], ['-']] → IsDigits cs →
    IsExponent (letter :: (sign ++ cs))

/-- A number of any size. -/
inductive IsNumber : List Char → Prop
  | parts {sign whole fraction exponent : List Char} :
    sign ∈ [[], ['-']] → IsWhole whole → IsFraction fraction → IsExponent exponent →
    IsNumber (sign ++ whole ++ fraction ++ exponent)

/-! ### Strings -/

/-- Characters that stand for themselves in a string. -/
def IsPlain (c : Char) : Prop := c ≠ '"' ∧ c ≠ '\\' ∧ isControl c = false

instance : DecidablePred IsPlain := fun _ => inferInstanceAs (Decidable (_ ∧ _ ∧ _))

/-- The number that four hexadecimal digits stand for. -/
def codeOf? (digits : List Char) : Option Nat :=
  if digits.length = 4 then
    (digits.mapM hexValue?).map fun values => values.foldl (fun n d => n * 16 + d) 0
  else none

/-- What may stand between the quotes of a string. -/
inductive IsBody : List Char → Prop
  | empty : IsBody []
  | plain {c : Char} {cs : List Char} : IsPlain c → IsBody cs → IsBody (c :: cs)
  | letter {c d : Char} {cs : List Char} :
    escaped? c = some d → IsBody cs → IsBody ('\\' :: c :: cs)
  | code {digits cs : List Char} {n : Nat} :
    codeOf? digits = some n → IsBody cs → IsBody ('\\' :: 'u' :: (digits ++ cs))

/-- The characters that a body stands for. -/
inductive Spells : List Char → List Char → Prop
  | empty : Spells [] []
  | plain {c : Char} {cs ds : List Char} :
    IsPlain c → Spells cs ds → Spells (c :: cs) (c :: ds)
  | letter {c d : Char} {cs ds : List Char} :
    escaped? c = some d → Spells cs ds → Spells ('\\' :: c :: cs) (d :: ds)
  | code {digits cs ds : List Char} {n : Nat} :
    codeOf? digits = some n → isLeading n = false → isTrailing n = false → Spells cs ds →
    Spells ('\\' :: 'u' :: (digits ++ cs)) (Char.ofNat n :: ds)
  | pair {first second cs ds : List Char} {m n : Nat} :
    codeOf? first = some m → isLeading m = true →
    codeOf? second = some n → isTrailing n = true → Spells cs ds →
    Spells ('\\' :: 'u' :: (first ++ '\\' :: 'u' :: (second ++ cs))) (ofPair m n :: ds)

/-! ### Values -/

mutual

/-- A value of any kind. -/
inductive IsValue : List Char → Prop
  | null : IsValue ['n', 'u', 'l', 'l']
  | yes : IsValue ['t', 'r', 'u', 'e']
  | no : IsValue ['f', 'a', 'l', 's', 'e']
  | number {cs : List Char} : IsNumber cs → IsValue cs
  | string {cs : List Char} : IsBody cs → IsValue ('"' :: (cs ++ ['"']))
  | emptyList {b : List Char} : IsBlanks b → IsValue ('[' :: (b ++ [']']))
  | list {cs : List Char} : IsElements cs → IsValue ('[' :: (cs ++ [']']))
  | emptyObject {b : List Char} : IsBlanks b → IsValue ('\x7b' :: (b ++ ['\x7d']))
  | object {cs : List Char} : IsMembers cs → IsValue ('\x7b' :: (cs ++ ['\x7d']))

/-- Values with commas between them, and blanks around each. -/
inductive IsElements : List Char → Prop
  | one {b₁ value b₂ : List Char} :
    IsBlanks b₁ → IsValue value → IsBlanks b₂ → IsElements (b₁ ++ value ++ b₂)
  | more {b₁ value b₂ cs : List Char} :
    IsBlanks b₁ → IsValue value → IsBlanks b₂ → IsElements cs →
    IsElements (b₁ ++ value ++ b₂ ++ ',' :: cs)

/-- A key and a value with a colon between them, and blanks around each. -/
inductive IsMember : List Char → Prop
  | keyed {b₁ key b₂ b₃ value b₄ : List Char} :
    IsBlanks b₁ → IsBody key → IsBlanks b₂ → IsBlanks b₃ → IsValue value → IsBlanks b₄ →
    IsMember (b₁ ++ '"' :: (key ++ '"' :: (b₂ ++ ':' :: (b₃ ++ value ++ b₄))))

/-- Members with commas between them. -/
inductive IsMembers : List Char → Prop
  | one {cs : List Char} : IsMember cs → IsMembers cs
  | more {cs ds : List Char} : IsMember cs → IsMembers ds → IsMembers (cs ++ ',' :: ds)

end

/-! ### The members of an object -/

/-- A member of an object: the characters that its key stands for, and the text
of its value. -/
structure Member where
  key : List Char
  value : List Char

/-- A text that is one member, with blanks around it. -/
inductive SpellsMember : List Char → Member → Prop
  | keyed {b₁ body b₂ b₃ b₄ : List Char} {m : Member} :
    IsBlanks b₁ → Spells body m.key → IsBlanks b₂ → IsBlanks b₃ → IsValue m.value →
    IsBlanks b₄ →
    SpellsMember (b₁ ++ '"' :: (body ++ '"' :: (b₂ ++ ':' :: (b₃ ++ m.value ++ b₄)))) m

/-- A text that is members with commas between them. -/
inductive SpellsMembers : List Char → List Member → Prop
  | one {cs : List Char} {m : Member} : SpellsMember cs m → SpellsMembers cs [m]
  | more {cs ds : List Char} {m : Member} {ms : List Member} :
    SpellsMember cs m → SpellsMembers ds ms → SpellsMembers (cs ++ ',' :: ds) (m :: ms)

/-- A text that is an object with these members. -/
inductive SpellsObject : List Char → List Member → Prop
  | empty {b : List Char} : IsBlanks b → SpellsObject ('\x7b' :: (b ++ ['\x7d'])) []
  | members {cs : List Char} {ms : List Member} :
    SpellsMembers cs ms → SpellsObject ('\x7b' :: (cs ++ ['\x7d'])) ms

end PcEngine.Json
