/-
  This file defines blank characters, those with the Unicode
  property of white space, and the removal of blanks from
  both ends of a text.

  Key definitions include:
    * `Text.isBlank`
    * `Text.trim`
-/

namespace MapStyle

namespace Text

------------------------------------------------------------
-- Blank characters
------------------------------------------------------------

/-
  The code points with the property of white space, as closed
  ranges, ascending and apart.
-/
def blankRanges : List (Nat × Nat) :=
  [(0x09, 0x0D), (0x20, 0x20), (0x85, 0x85), (0xA0, 0xA0),
   (0x1680, 0x1680), (0x2000, 0x200A), (0x2028, 0x2029),
   (0x202F, 0x202F), (0x205F, 0x205F), (0x3000, 0x3000)]

/- Whether a character is white space. -/
def isBlank (c : Char) : Bool :=
  blankRanges.any fun r =>
    r.1 ≤ c.toNat && c.toNat ≤ r.2

------------------------------------------------------------
-- Trimming
------------------------------------------------------------

/- Remove the blanks at the front. -/
def trimFront (text : List Char) : List Char :=
  text.dropWhile isBlank

/- Remove the blanks at both ends. -/
def trim (text : List Char) : List Char :=
  (trimFront (trimFront text).reverse).reverse

/- Whether every character is blank. -/
def allBlank (text : List Char) : Bool :=
  text.all isBlank

end Text

end MapStyle
