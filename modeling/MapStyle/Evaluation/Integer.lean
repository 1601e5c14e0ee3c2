import MapStyle.Failure

/-
  This file defines the arithmetic of integers of sixty-four
  bits. Operations are exact: a result outside of the range
  is an error. Quotients are rounded down, and remainders have
  the sign of the divisor; both are corrected from those that
  are cut towards zero.

  Key definitions include:
    * `Integer.ofInt?`
    * `Integer.power?`
    * `Integer.Fault`
    * `Integer.quotient`
    * `Integer.remainder`
    * `Integer.fold`
-/

namespace MapStyle

namespace Integer

------------------------------------------------------------
-- Range
------------------------------------------------------------

/- The integer with a value, if the value is in range. -/
def ofInt? (n : Int) : Option Int64 :=
  if -0x8000000000000000 ≤ n ∧ n < 0x8000000000000000 then
    some (Int64.ofInt n)
  else
    none

/- What is in range keeps its value. -/
theorem toInt_of_ofInt?
    {n : Int}
    {m : Int64}
    (h : ofInt? n = some m) : m.toInt = n := by
  unfold ofInt? at h
  split at h
  · next hr =>
      cases h
      exact Int64.toInt_ofInt_of_le (by omega) (by omega)
  · cases h

------------------------------------------------------------
-- Powers
------------------------------------------------------------

/- An exponent of a power that is an integer. -/
def exponent? (n : Int64) : Option Nat :=
  if 0 ≤ n.toInt ∧ n.toInt < 0x100000000 then
    some n.toInt.toNat
  else
    none

/-
  A power, if it is in range. From two on, no base has a power
  in range whose exponent exceeds the number of bits; below
  two, only zero and the parity of the exponent matter.
-/
def power?
    (base : Int)
    (exponent : Nat) : Option Int64 :=
  if base.natAbs < 2 then
    if exponent = 0 then
      ofInt? 1
    else if exponent % 2 = 0 then
      ofInt? (base * base)
    else
      ofInt? base
  else if exponent ≤ 64 then
    ofInt? (Int.pow base exponent)
  else
    none

------------------------------------------------------------
-- Division
------------------------------------------------------------

/-
  How a step ends that has no result: it is refused where the
  result is tested for, and it traps where nothing is tested.
-/
inductive Fault
  | refused
  | trapped
deriving DecidableEq

/- A step whose result is tested for. -/
def guarded : Option Int64 → Except Fault Int64
  | some n => .ok n
  | none => .error .refused

/- A step that is taken without a test. -/
def unguarded : Option Int64 → Except Fault Int64
  | some n => .ok n
  | none => .error .trapped

/-
  The quotient that is cut towards zero. There is none for the
  divisor zero, and none out of range.
-/
def cutQuotient? (a b : Int64) : Option Int64 :=
  if b.toInt = 0 then
    none
  else
    ofInt? (a.toInt.tdiv b.toInt)

/-
  The remainder that the cut quotient leaves. Where there is
  no quotient, there is no remainder.
-/
def cutRemainder? (a b : Int64) : Option Int64 :=
  (cutQuotient? a b).bind fun _ =>
    ofInt? (a.toInt.tmod b.toInt)

/- Whether just one of two integers is negative. -/
def signsDiffer (a b : Int64) : Bool :=
  decide (a.toInt < 0) != decide (b.toInt < 0)

/-
  The quotient that is rounded down. It is one less than the
  cut one if that has been cut upwards.
-/
def quotient (a b : Int64) : Except Fault Int64 := do
  let q ← guarded (cutQuotient? a b)
  let r ← unguarded (cutRemainder? a b)
  if r.toInt ≠ 0 && signsDiffer a b then
    unguarded (ofInt? (q.toInt - 1))
  else
    pure q

/-
  The remainder with the sign of the divisor. The divisor is
  added once to a remainder of the other sign.
-/
def remainder (a b : Int64) : Except Fault Int64 := do
  let r ← guarded (cutRemainder? a b)
  if r.toInt ≠ 0 && signsDiffer r b then
    unguarded (ofInt? (r.toInt + b.toInt))
  else
    pure r

------------------------------------------------------------
-- Operators
------------------------------------------------------------

/- The error of a result that is out of range. -/
def overflow
    (a : Int64)
    (op : BinaryOp)
    (b : Int64) : CompileError :=
  .argument (.overflow a op b)

/- A result that must be in range. -/
def checked
    (a : Int64)
    (op : BinaryOp)
    (b : Int64)
    (result : Option Int64) : Except CompileError (Option Value) :=
  match result with
  | some n => .ok (some (.int n))
  | none => .error (overflow a op b)

/- A comparison. -/
def compared (result : Bool) : Except CompileError (Option Value) :=
  .ok (some (.bool result))

/-
  Apply an operator to integers. The remainder is refused
  where the quotient is out of range. A power whose exponent
  is negative or too large is a float. Conjunction and
  disjunction are not computed.
-/
def fold
    (a : Int64)
    (op : BinaryOp)
    (b : Int64) : Except CompileError (Option Value) :=
  match op with
  | .add => checked a op b (ofInt? (a.toInt + b.toInt))
  | .sub => checked a op b (ofInt? (a.toInt - b.toInt))
  | .mul => checked a op b (ofInt? (a.toInt * b.toInt))
  | .div =>
      if b.toInt = 0 then
        .error (.argument .divisionByZero)
      else
        checked a op b (quotient a b).toOption
  | .mod =>
      if b.toInt = 0 then
        .error (.argument .divisionByZero)
      else
        checked a op b (remainder a b).toOption
  | .pow =>
      match exponent? b with
      | some n => checked a op b (power? a.toInt n)
      | none => .ok (some (.float (a.toFloat.pow b.toFloat)))
  | .eq => compared (a.toInt = b.toInt)
  | .ne => compared (a.toInt ≠ b.toInt)
  | .lt => compared (a.toInt < b.toInt)
  | .le => compared (a.toInt ≤ b.toInt)
  | .gt => compared (a.toInt > b.toInt)
  | .ge => compared (a.toInt ≥ b.toInt)
  | .and => .ok none
  | .or => .ok none

/- The negation of an integer. -/
def negate (n : Int64) : Except CompileError Value :=
  match ofInt? (-n.toInt) with
  | some m => .ok (.int m)
  | none => .error (.argument (.negationOverflow n))

end Integer

end MapStyle
