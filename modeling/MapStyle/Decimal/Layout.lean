import MapStyle.Decimal.Shortest

/-
  This file lays out decimals as text.

  Key definitions include:
    * `Decimal.Layout`
    * `Decimal.layOut`
    * `Decimal.documentLayout`
    * `Decimal.floatText`
-/

namespace MapStyle

namespace Decimal

------------------------------------------------------------
-- Layout decisions
------------------------------------------------------------

/-
  The exponents of the leading digit for which a number is
  written positionally, and the sign that a scientific
  exponent carries when it is positive.
-/
structure Layout where
  plainFrom : Int
  plainTo : Int
  positiveSign : List Char

/-
  Numbers in documents are written positionally from a
  hundred-thousandth up to sixteen digits before the point,
  and always with a fraction; beyond that with a signed
  exponent.
-/
def documentLayout : Layout where
  plainFrom := -5
  plainTo := 15
  positiveSign := ['+']

------------------------------------------------------------
-- Text
------------------------------------------------------------

/- The decimal digits of a natural. -/
def naturalText (n : Nat) : List Char :=
  Nat.toDigits 10 n

/- The digits of an integer after its sign. -/
def integerText (n : Int) : List Char :=
  if n < 0 then
    '-' :: naturalText n.natAbs
  else
    naturalText n.natAbs

/-
  Positional text with the point after, inside or before the
  digits.
-/
def positional
    (digits : List Char)
    (leading : Int) : List Char :=
  if leading < 0 then
    '0' :: '.' ::
      (List.replicate (-leading - 1).toNat '0' ++ digits)
  else
    let whole := leading.toNat + 1
    let fraction := digits.drop whole
    digits.take whole
      ++ List.replicate (whole - digits.length) '0'
      ++ '.' :: (if fraction.isEmpty then ['0'] else fraction)

/- Scientific text with the point after the first digit. -/
def scientific
    (layout : Layout)
    (digits : List Char)
    (leading : Int) : List Char :=
  let fraction := digits.drop 1
  let mark :=
    if leading < 0 then [] else layout.positiveSign
  digits.take 1
    ++ (if fraction.isEmpty then [] else '.' :: fraction)
    ++ 'e' :: mark ++ integerText leading

/- The text of a decimal under a layout. -/
def layOut
    (layout : Layout)
    (d : Decimal) : List Char :=
  let digits := naturalText d.digits
  let leading := d.exponent + digits.length - 1
  if layout.plainFrom ≤ leading ∧ leading ≤ layout.plainTo then
    positional digits leading
  else
    scientific layout digits leading

/- The text of a float that is neither infinite nor NaN. -/
def floatText (x : Float) : List Char :=
  let magnitude :=
    if x == 0.0 then
      ['0', '.', '0']
    else
      layOut documentLayout (Binary.ofFloat x).shortest
  if isSignBitSet x then '-' :: magnitude else magnitude

end Decimal

end MapStyle
