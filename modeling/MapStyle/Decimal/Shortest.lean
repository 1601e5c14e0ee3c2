import MapStyle.Decimal.Binary

/-
  This file selects the shortest decimal that reads back as a
  given float: the decimals that round to the float form an
  interval, and of the grids of powers of ten the coarsest
  with a point in that interval is taken.

  Key definitions include:
    * `Decimal`
    * `Binary.Rounds`
    * `Binary.shortest`
-/

namespace MapStyle

/- The number `digits * 10 ^ exponent`. -/
structure Decimal where
  digits : Nat
  exponent : Int
deriving DecidableEq

namespace Binary

------------------------------------------------------------
-- The rounding interval
------------------------------------------------------------

/-
  Factors that make a decimal on the grid of `10 ^ exponent`
  and a quarter of the float's unit comparable as naturals:
  the first multiplies the digits, the second the quarters.
-/
def scales
    (x : Binary)
    (exponent : Int) : Nat × Nat :=
  let quarter := x.exponent - 2
  (Nat.pow 10 exponent.toNat * Nat.pow 2 (-quarter).toNat,
    Nat.pow 2 quarter.toNat * Nat.pow 10 (-exponent).toNat)

/- The lower end of the rounding interval, in quarters. -/
def lowQuarters (x : Binary) : Nat :=
  if x.narrowBelow then
    4 * x.mantissa - 1
  else
    4 * x.mantissa - 2

/- The upper end of the rounding interval, in quarters. -/
def highQuarters (x : Binary) : Nat :=
  4 * x.mantissa + 2

/-
  A decimal rounds to a float when it lies between the ends
  of the interval; the ends belong to it when the mantissa is
  even.
-/
def Rounds
    (x : Binary)
    (d : Decimal) : Prop :=
  let (left, right) := x.scales d.exponent
  if x.mantissa % 2 = 0 then
    x.lowQuarters * right ≤ d.digits * left ∧
      d.digits * left ≤ x.highQuarters * right
  else
    x.lowQuarters * right < d.digits * left ∧
      d.digits * left < x.highQuarters * right

instance
    (x : Binary)
    (d : Decimal) :
    Decidable (x.Rounds d) := by
  unfold Rounds
  dsimp only
  split <;> infer_instance

------------------------------------------------------------
-- One grid
------------------------------------------------------------

/-
  The point of a grid that rounds to the float. Only the two
  neighbours of the float can; of two that do the nearer is
  taken, and of two equally near the even one.
-/
def onGrid?
    (x : Binary)
    (exponent : Int) : Option Decimal :=
  let (left, right) := x.scales exponent
  let exact := 4 * x.mantissa * right
  let below : Decimal := ⟨exact / left, exponent⟩
  let above : Decimal := ⟨exact / left + 1, exponent⟩
  let gapBelow := exact - below.digits * left
  let gapAbove := above.digits * left - exact
  if x.Rounds below then
    if x.Rounds above then
      if gapBelow < gapAbove then
        some below
      else if gapAbove < gapBelow then
        some above
      else if below.digits % 2 = 0 then
        some below
      else
        some above
    else
      some below
  else if x.Rounds above then
    some above
  else
    none

------------------------------------------------------------
-- The coarsest grid
------------------------------------------------------------

/-
  Search the grids from a coarse one down to the finest, on
  which the float itself lies.
-/
def search
    (x : Binary)
    (finest : Int) : Nat → Decimal
  | 0 =>
      let (left, right) := x.scales finest
      ⟨4 * x.mantissa * right / left, finest⟩
  | steps + 1 =>
      match x.onGrid? (finest + (steps + 1 : Nat)) with
      | some d => d
      | none => search x finest steps

/- The number of decimal digits of a natural. -/
def decimalLength (n : Nat) : Nat :=
  (Nat.toDigits 10 n).length

/-
  The shortest decimal that rounds to a positive float. The
  search starts on a grid coarser than the float is large.
-/
def shortest (x : Binary) : Decimal :=
  let whole :=
    x.mantissa * Nat.pow 2 x.exponent.toNat
      / Nat.pow 2 (-x.exponent).toNat
  let finest := min x.exponent 0
  let coarsest := (decimalLength whole : Int) + 1
  search x finest (coarsest - finest).toNat

end Binary

end MapStyle
