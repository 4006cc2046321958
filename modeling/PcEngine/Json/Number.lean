/-
PcEngine/Json/Number.lean

Numbers.

A number without sign, fraction and exponent that fits 64 bits is a natural
number; every other number is read as a floating-point number.  Nothing here
needs the value of one, only whether there is one: a number is malformed if it
is too large for the 64-bit format.

The value is worked out the usual fast way, and the limit is where that way
finds it.  As many leading digits as fit 64 bits are rounded to a double, the
power of ten that is left is rounded to a double, and their product must not
round to infinity (`tooLarge`).
-/
import PcEngine.Json.Fault

namespace PcEngine.Json

/-- A number, as far as its value is of interest. -/
inductive Numeral where
  | natural (n : Nat)
  | other
  deriving DecidableEq

/-! ### The range of doubles -/

/-- The nearest number of at most 53 significant bits; of two nearest ones the
one whose last significant bit is zero. -/
def roundToDouble (n : Nat) : Nat :=
  if n < Nat.pow 2 53 then n
  else
    let unit := Nat.pow 2 (n.log2 - 52)
    let whole := n / unit
    let rest := n % unit
    let up := unit < 2 * rest || (unit == 2 * rest && whole % 2 == 1)
    (if up then whole + 1 else whole) * unit

/-- Numbers from here on round to infinity. -/
def doubleLimit : Nat := Nat.pow 2 1024 - Nat.pow 2 970

/-- Whether `significand * 10 ^ exponent` has no finite double. -/
def tooLarge (significand : Nat) (exponent : Int) : Bool :=
  significand ≠ 0 && 0 ≤ exponent &&
    (308 < exponent ||
      doubleLimit ≤ roundToDouble significand * roundToDouble (Nat.pow 10 exponent.toNat))

/-! ### Digits -/

/-- What 64 bits hold. -/
def wordLimit : Nat := UInt64.size

/-- The decimal digits at the front of a text, and the rest. -/
def spanDigits (cs : List Char) : List Char × List Char := cs.span Char.isDigit

def digitValue (c : Char) : Nat := c.toNat - 48

/-- Exponents from here on are all alike in a text that has fewer digits than
this: they make every number but zero too large, and their negatives make it
zero. -/
def exponentLimit : Nat := Nat.pow 2 31

/-- The exponent that digits stand for, or the limit. -/
def exponentValue (ds : List Char) : Nat :=
  ds.foldl (fun n c => min (n * 10 + digitValue c) exponentLimit) 0

/-- The significand of the digits before the point: as many as fit 64 bits,
and how many are left over. -/
def wholePart (ds : List Char) : Nat × Nat :=
  ds.foldl (fun (n, left) c =>
    if left = 0 ∧ n * 10 + digitValue c < wordLimit then (n * 10 + digitValue c, 0)
    else (n, left + 1)) (0, 0)

/-- Add the digits behind the point to a significand as long as it fits 64
bits; gives the significand and how many were added. -/
def addFraction (significand added : Nat) : List Char → Nat × Nat
  | [] => (significand, added)
  | c :: cs =>
    if significand * 10 + digitValue c < wordLimit then
      addFraction (significand * 10 + digitValue c) (added + 1) cs
    else (significand, added)

/-! ### Reading -/

/-- The fault of a text in which a digit is missing. -/
def missingDigit (rest : List Char) : Fault :=
  if rest.isEmpty then .truncated else .malformed

/-- Read an exponent, if there is one, and check the range of the number. -/
def readExponent (significand : Nat) (exponent : Int) (cs : List Char) :
    Except Fault (List Char) :=
  match cs with
  | c :: cs' =>
    if c = 'e' || c = 'E' then
      let (negative, cs') :=
        match cs' with
        | '-' :: rest => (true, rest)
        | '+' :: rest => (false, rest)
        | _ => (false, cs')
      let (ds, rest) := spanDigits cs'
      if ds.isEmpty then .error (missingDigit rest)
      else
        let shift : Int := exponentValue ds
        if tooLarge significand (if negative then exponent - shift else exponent + shift) then
          .error .malformed
        else .ok rest
    else if tooLarge significand exponent then .error .malformed
    else .ok cs
  | [] => if tooLarge significand exponent then .error .malformed else .ok cs

/-- Read a number from behind its sign. -/
def readNumber (negative : Bool) : Reader Numeral := fun cs =>
  match spanDigits cs with
  | ([], rest) => .error (missingDigit rest)
  | ('0' :: _ :: _, _) => .error .malformed
  | (ds, rest) =>
    let (significand, left) := wholePart ds
    match rest with
    | '.' :: fraction =>
      match spanDigits fraction with
      | ([], rest) => .error (missingDigit rest)
      | (fs, rest) =>
        let (significand, added) := addFraction significand 0 fs
        (readExponent significand (left - added) rest).map (.other, ·)
    | 'e' :: _ | 'E' :: _ => (readExponent significand left rest).map (.other, ·)
    | _ =>
      if left = 0 then .ok (if negative then .other else .natural significand, rest)
      else (readExponent significand left rest).map (.other, ·)

end PcEngine.Json
