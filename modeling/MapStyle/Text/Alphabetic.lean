/-
  This file defines the alphabetic numbering of siblings:
  a, b, .. z, aa, ab, .. az, ba, .. in which each length is
  used up before the next begins.

  Key definitions include:
    * `Text.alphabetic`
-/

namespace MapStyle

namespace Text

/- The letter with a given index below twenty-six. -/
def letter (index : Nat) : Char :=
  Char.ofNat ('a'.toNat + index)

/-
  The letters of the word with number `n`, last letter first.
  Past the last letter, the numbers that the shorter words
  have used up are taken off.
-/
def alphabeticRev (n : Nat) : List Char :=
  if n < 26 then
    [letter n]
  else
    letter (n % 26) :: alphabeticRev (n / 26 - 1)
termination_by n
decreasing_by omega

/- The word with number `n`. -/
def alphabetic (n : Nat) : List Char :=
  (alphabeticRev n).reverse

/- No number has the empty word. -/
theorem alphabetic_ne_nil (n : Nat) : alphabetic n ≠ [] := by
  unfold alphabetic alphabeticRev
  split <;> simp

end Text

end MapStyle
