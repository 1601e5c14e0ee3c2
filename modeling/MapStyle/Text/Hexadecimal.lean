/-
  This file defines the writing and reading of numbers in
  base sixteen with lower-case digits.

  Key definitions include:
    * `Text.hexadecimal`
    * `Text.hexadecimalPadded`
    * `Text.hexadecimalValue?`
-/

namespace MapStyle

namespace Text

------------------------------------------------------------
-- Digits
------------------------------------------------------------

/- The lower-case digit of a value below sixteen. -/
def hexDigit (value : Nat) : Char :=
  if value < 10 then
    Char.ofNat ('0'.toNat + value)
  else
    Char.ofNat ('a'.toNat + (value - 10))

/- The value of a digit of either case. -/
def hexDigitValue? (c : Char) : Option Nat :=
  if '0' ≤ c ∧ c ≤ '9' then
    some (c.toNat - '0'.toNat)
  else if 'a' ≤ c ∧ c ≤ 'f' then
    some (c.toNat - 'a'.toNat + 10)
  else if 'A' ≤ c ∧ c ≤ 'F' then
    some (c.toNat - 'A'.toNat + 10)
  else
    none

/- A digit reads back as its value. -/
theorem hexDigitValue?_hexDigit :
    ∀ value, value < 16 →
      hexDigitValue? (hexDigit value) = some value := by
  decide

------------------------------------------------------------
-- Numbers
------------------------------------------------------------

/- The digits of a number, last digit first. -/
def hexadecimalRev (n : Nat) : List Char :=
  if n < 16 then
    [hexDigit n]
  else
    hexDigit (n % 16) :: hexadecimalRev (n / 16)
termination_by n
decreasing_by omega

/- The digits of a number, without leading zeros. -/
def hexadecimal (n : Nat) : List Char :=
  (hexadecimalRev n).reverse

/-
  The digits of a number with zeros in front up to a width;
  a longer number is not cut.
-/
def hexadecimalPadded
    (width n : Nat) : List Char :=
  let digits := hexadecimal n
  List.replicate (width - digits.length) '0' ++ digits

/- Read digits onto a value already read. -/
def hexadecimalValueFrom?
    (value : Nat) : List Char → Option Nat
  | [] => some value
  | c :: rest =>
      match hexDigitValue? c with
      | none => none
      | some d => hexadecimalValueFrom? (value * 16 + d) rest

/- The number that a text of digits stands for. -/
def hexadecimalValue? : List Char → Option Nat
  | [] => none
  | digits => hexadecimalValueFrom? 0 digits

end Text

end MapStyle
