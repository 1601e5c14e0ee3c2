/-
  This file decodes finite binary floating-point numbers into
  integers and computes with them exactly.

  Key definitions include:
    * `Binary`
    * `Binary.ofFloat`
    * `Binary.remainder`
-/

namespace MapStyle

------------------------------------------------------------
-- Finite magnitudes
------------------------------------------------------------

/-
  The magnitude of a finite float: `mantissa * 2 ^ exponent`.
  Below a power of two the gap to the next smaller float is
  half as wide as the gap to the next larger one.
-/
structure Binary where
  mantissa : Nat
  exponent : Int
  narrowBelow : Bool

namespace Binary

/- Decode the magnitude of a finite float. -/
def ofFloat (x : Float) : Binary :=
  let bits := x.toBits
  let biased := ((bits >>> 52) &&& 0x7FF).toNat
  let fraction := (bits &&& 0xFFFFFFFFFFFFF).toNat
  if biased = 0 then
    ⟨fraction, -1074, false⟩
  else
    ⟨0x10000000000000 + fraction, (biased : Int) - 1075,
      fraction = 0 && biased > 1⟩

end Binary

------------------------------------------------------------
-- Signs and remainders
------------------------------------------------------------

/- Whether the sign bit of a float is set. -/
def isSignBitSet (x : Float) : Bool :=
  x.toBits >>> 63 != 0

namespace Binary

/-
  The remainder of `x` by `y` that the quotient cut towards
  zero leaves, computed without rounding. It has the sign of
  `x`.
-/
def remainder (x y : Float) : Float :=
  if x.isNaN || y.isNaN || x.isInf || y == 0.0 then
    0.0 / 0.0
  else if y.isInf || x == 0.0 then
    x
  else
    let a := ofFloat x
    let b := ofFloat y
    let low := min a.exponent b.exponent
    let m := a.mantissa * Nat.pow 2 (a.exponent - low).toNat
    let n := b.mantissa * Nat.pow 2 (b.exponent - low).toNat
    let magnitude := (Float.ofNat (m % n)).scaleB low
    if isSignBitSet x then -magnitude else magnitude

/-
  The remainder that is made non-negative by adding the
  magnitude of the divisor once.
-/
def remainderNonneg (x y : Float) : Float :=
  let r := remainder x y
  if r < 0.0 then r + y.abs else r

end Binary

end MapStyle
