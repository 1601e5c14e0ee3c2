import MapStyle.Evaluation.Integer
import MapStyle.Expression.Build

/-
  This file defines the application of operators to values.
  What is known is computed; as soon as a side is an
  expression, or nothing can be computed, the result is an
  expression.

  Key definitions include:
    * `BinaryOp.fold?`
    * `BinaryOp.apply`
    * `UnaryOp.apply`
-/

namespace MapStyle

namespace BinaryOp

------------------------------------------------------------
-- Folding
------------------------------------------------------------

/- Apply an operator to floats. Remainders are floored. -/
def foldFloats
    (a : Float)
    (op : BinaryOp)
    (b : Float) : Value :=
  match op with
  | .add => .float (a + b)
  | .sub => .float (a - b)
  | .mul => .float (a * b)
  | .div => .float (a / b)
  | .mod => .float (a - b * (a / b).floor)
  | .pow => .float (a.pow b)
  | .eq => .bool (a == b)
  | .ne => .bool (a != b)
  | .lt => .bool (a < b)
  | .le => .bool (a ≤ b)
  | .gt => .bool (a > b)
  | .ge => .bool (a ≥ b)
  | .and => .null
  | .or => .null

/- Apply an operator to strings, ordered by code points. -/
def foldTexts
    (a : String)
    (op : BinaryOp)
    (b : String) : Option Value :=
  match op with
  | .add => some (.text (a ++ b))
  | .eq => some (.bool (a == b))
  | .ne => some (.bool (a != b))
  | .lt => some (.bool (a < b))
  | .le => some (.bool (¬ b < a))
  | .gt => some (.bool (b < a))
  | .ge => some (.bool (¬ a < b))
  | _ => none

/- Values of other kinds can only be equal or not. -/
def foldOthers
    (a : Value)
    (op : BinaryOp)
    (b : Value) : Option Value :=
  match op with
  | .eq => some (.bool (a.same b))
  | .ne => some (.bool (!a.same b))
  | _ => none

/- Whether an operator combines conditions. -/
def isLogical : BinaryOp → Bool
  | .and => true
  | .or => true
  | _ => false

/-
  Compute the result of an operator, if it can be computed.
  Integers stay integers; with a float, both are floats.
-/
def fold?
    (a : Value)
    (op : BinaryOp)
    (b : Value) : Except CompileError (Option Value) :=
  if op.isLogical || a.isExpression || b.isExpression then
    .ok none
  else
    match a, b with
    | .int m, .int n => Integer.fold m op n
    | .int m, .float y => .ok (some (foldFloats m.toFloat op y))
    | .float x, .int n => .ok (some (foldFloats x op n.toFloat))
    | .float x, .float y => .ok (some (foldFloats x op y))
    | .text s, .text t => .ok (foldTexts s op t)
    | a, b => .ok (foldOthers a op b)

------------------------------------------------------------
-- Expressions
------------------------------------------------------------

/- The name of an operator in the vocabulary. -/
def word : BinaryOp → String
  | .add => "add"
  | .sub => "sub"
  | .mul => "mul"
  | .div => "div"
  | .mod => "modulo"
  | .pow => "pow"
  | .eq => "eq"
  | .ne => "ne"
  | .lt => "lt"
  | .le => "le"
  | .gt => "gt"
  | .ge => "ge"
  | .and => "all"
  | .or => "any"

/- The expression of an operator. -/
def expression
    (a : Value)
    (op : BinaryOp)
    (b : Value) : Expression :=
  match op with
  | .and =>
      Expression.merge .all a.toExpression b.toExpression
  | .or =>
      Expression.merge .any a.toExpression b.toExpression
  | op => a.toExpression.apply op.word [b]

/- Apply an operator between values. -/
def apply
    (a : Value)
    (op : BinaryOp)
    (b : Value) : Except CompileError Value := do
  match ← fold? a op b with
  | some v => pure v
  | none => pure (.expr (expression a op b))

end BinaryOp

/- Apply an operator in front of a value. -/
def UnaryOp.apply
    (op : UnaryOp)
    (v : Value) : Except CompileError Value :=
  match op, v with
  | .neg, .int n => Integer.negate n
  | .neg, .float x => .ok (.float (-x))
  | .neg, .expr e => .ok (.expr (.node "-" [.expr e]))
  | .neg, v => .error (.argument (.notNegatable v))
  | .not, .expr e => .ok (.expr e.negate)
  | .not, v => .ok (.bool (!v.isTruthy))

end MapStyle
