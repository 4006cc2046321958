/-
PcEngine/Text/Hex.lean

Upper-case hexadecimal numbers of a least width, as messages show register
contents and addresses.
-/

namespace PcEngine

/-- The digit for a value below sixteen. -/
def hexDigit (n : Nat) : Char :=
  if n < 10 then Char.ofNat (48 + n) else Char.ofNat (55 + n)

/-- The digits of a number, most significant first; none for zero. -/
def hexDigits (n : Nat) : List Char :=
  if _ : n = 0 then [] else hexDigits (n / 16) ++ [hexDigit (n % 16)]
  termination_by n
  decreasing_by omega

/-- A number in hexadecimal, filled with zeros on the left up to `width`
digits. -/
def hex (width n : Nat) : String :=
  let digits := hexDigits n
  String.ofList (List.replicate (width - digits.length) '0' ++ digits)

end PcEngine
