import MapStyle.Decimal.Layout

/-
  This file defines the numbers of documents: integers of
  sixty-four bits and finite floats, which stay apart.

  Key definitions include:
    * `Number`
    * `Number.ofFloat?`
    * `Number.same`
    * `Number.text`
-/

namespace MapStyle

/- A number of a document. -/
inductive Number
  | int (value : Int64)
  | float (value : Float)

namespace Number

/- Infinities and NaN are no numbers of a document. -/
def ofFloat? (x : Float) : Option Number :=
  if x.isFinite then some (.float x) else none

/-
  Equality of numbers. An integer differs from every float,
  and the two zeros are equal.
-/
def same : Number → Number → Bool
  | .int a, .int b => a == b
  | .float a, .float b => a == b
  | _, _ => false

/- The text of a number. -/
def text : Number → List Char
  | .int n => Decimal.integerText n.toInt
  | .float x => Decimal.floatText x

end Number

end MapStyle
