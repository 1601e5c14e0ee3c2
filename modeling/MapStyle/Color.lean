import MapStyle.Text.Hexadecimal

/-
  This file defines colors as three channels of eight bits.

  Key definitions include:
    * `Color`
    * `Color.ofInt?`
    * `Color.toNat`
    * `Color.text`
-/

namespace MapStyle

/- A color by its red, green and blue channels. -/
structure Color where
  red : UInt8
  green : UInt8
  blue : UInt8
deriving DecidableEq

namespace Color

/- The largest number that stands for a color. -/
def maxNat : Nat := 0xffffff

/- The color whose channels are the three bytes of `n`. -/
def ofNat (n : Nat) : Color where
  red := UInt8.ofNat (n / 0x10000)
  green := UInt8.ofNat (n / 0x100)
  blue := UInt8.ofNat n

/- An integer stands for a color up to six digits. -/
def ofInt? (n : Int64) : Option Color :=
  if 0 ≤ n.toInt ∧ n.toInt ≤ maxNat then
    some (ofNat n.toInt.toNat)
  else
    none

/- The number that stands for a color. -/
def toNat (c : Color) : Nat :=
  c.red.toNat * 0x10000 + c.green.toNat * 0x100 + c.blue.toNat

/-
  The text of a number as a color: a hash and at least six
  hexadecimal digits.
-/
def numberText (n : Nat) : List Char :=
  '#' :: Text.hexadecimalPadded 6 n

/- The text of a color: a hash and six hexadecimal digits. -/
def text (c : Color) : String :=
  String.ofList (numberText c.toNat)

end Color

end MapStyle
