import MapStyle.Color
import MapStyle.Json.Printer
import MapStyle.Spelling

/-
  This file defines the values of properties and the
  expressions that are left to be evaluated for each feature.

  Key definitions include:
    * `ZoomRange`
    * `Value`
    * `Expression`
    * `Value.same`
    * `Value.lower`
    * `Expression.encode`
    * `Expression.depth`
-/

namespace MapStyle

------------------------------------------------------------
-- Values
------------------------------------------------------------

/- A range of zoom levels; either bound may be absent. -/
structure ZoomRange where
  lower : Option Number
  upper : Option Number

mutual

/-
  A value of a property: a literal, a list or mapping, a zoom
  range, a color, or an expression.
-/
inductive Value
  | null
  | bool (value : Bool)
  | int (value : Int64)
  | float (value : Float)
  | text (value : String)
  | list (items : List Value)
  | map (entries : List (String × Value))
  | range (value : ZoomRange)
  | color (value : Color)
  | expr (value : Expression)

/-
  An expression: a value that stands for itself, or an
  operator with its operands.
-/
inductive Expression
  | pass (value : Value)
  | node (operator : String) (operands : List Value)

end

instance : Inhabited Value :=
  ⟨.null⟩

instance : Inhabited Expression :=
  ⟨.pass .null⟩

------------------------------------------------------------
-- Views
------------------------------------------------------------

namespace Value

/- Everything but null and false counts as true. -/
def isTruthy : Value → Bool
  | .null => false
  | .bool false => false
  | _ => true

/- The text of a string. -/
def text? : Value → Option String
  | .text s => some s
  | _ => none

/- Whether a value is an expression. -/
def isExpression : Value → Bool
  | .expr _ => true
  | _ => false

/- The number of an integer or a finite float. -/
def number? : Value → Option Number
  | .int n => some (.int n)
  | .float x => Number.ofFloat? x
  | _ => none

/- The float nearest to an integer or float. -/
def float? : Value → Option Float
  | .int n => some n.toFloat
  | .float x => some x
  | _ => none

/-
  A value as an expression: an expression is itself, any
  other value is wrapped so that it stands for itself.
-/
def toExpression : Value → Expression
  | .expr e => e
  | v => .pass v

end Value

namespace Expression

/- The operator, unless the expression stands for a value. -/
def operator? : Expression → Option String
  | .pass _ => none
  | .node operator _ => some operator

/- The operands; a wrapped value is the only operand. -/
def operands : Expression → List Value
  | .pass v => [v]
  | .node _ operands => operands

end Expression

------------------------------------------------------------
-- Equality
------------------------------------------------------------

namespace ZoomRange

/- Equality of bounds, absent bounds being equal. -/
def sameBound : Option Number → Option Number → Bool
  | none, none => true
  | some a, some b => a.same b
  | _, _ => false

/- Equality of ranges. -/
def same (a b : ZoomRange) : Bool :=
  sameBound a.lower b.lower && sameBound a.upper b.upper

end ZoomRange

mutual

/-
  Structural equality. Integers differ from floats, floats
  compare as numbers, and the order of entries of a mapping
  does not matter.
-/
def Value.same : Value → Value → Bool
  | .null, .null => true
  | .bool a, .bool b => a == b
  | .int a, .int b => a == b
  | .float a, .float b => a == b
  | .text a, .text b => a == b
  | .list a, .list b => Value.sameItems a b
  | .map a, .map b =>
      a.length == b.length && Value.sameEntries a b
  | .range a, .range b => a.same b
  | .color a, .color b => a == b
  | .expr a, .expr b => Expression.same a b
  | _, _ => false

/- Equality of expressions: same operator, equal operands. -/
def Expression.same : Expression → Expression → Bool
  | .pass a, .pass b => Value.same a b
  | .node s a, .node t b => s == t && Value.sameItems a b
  | _, _ => false

/- Equality of lists, item by item. -/
def Value.sameItems : List Value → List Value → Bool
  | [], [] => true
  | a :: as, b :: bs => Value.same a b && Value.sameItems as bs
  | _, _ => false

/- Whether every entry occurs among the others. -/
def Value.sameEntries :
    List (String × Value) → List (String × Value) → Bool
  | [], _ => true
  | (name, a) :: rest, others =>
      (match Entries.find? name others with
        | some b => Value.same a b
        | none => false)
        && Value.sameEntries rest others

end

------------------------------------------------------------
-- Lowering
------------------------------------------------------------

/- Write out the names of members with hyphens. -/
def Json.hyphenateMembers : Json → Json
  | .object members =>
      Json.ofMembers
        (members.map fun m => (Spelling.hyphenated m.1, m.2))
  | json => json

/-
  The form of a lowered value as an operand: the mappings
  among the operands are options, whose names are written
  with hyphens.
-/
def Value.operandForm : Value → Json → Json
  | .map _, lowered => lowered.hyphenateMembers
  | _, lowered => lowered

mutual

/-
  The JSON tree of a value. Floats that are no numbers of a
  document become null.
-/
def Value.lower : Value → Json
  | .null => .null
  | .bool b => .bool b
  | .int n => .number (.int n)
  | .float x => Json.ofNumber? (Number.ofFloat? x)
  | .text s => .text s
  | .list items => .array (Value.lowerItems items)
  | .map entries => .object (Value.lowerEntries entries)
  | .range r =>
      .array [Json.ofNumber? r.lower, Json.ofNumber? r.upper]
  | .color c => .text c.text
  | .expr e => Expression.encode e

/-
  The JSON tree of an expression: the operator followed by
  the operands. A wrapped value is written as itself.
-/
def Expression.encode : Expression → Json
  | .pass v => v.operandForm v.lower
  | .node operator operands =>
      .array (.text operator :: Value.lowerOperands operands)

/- Lower the items of a list. -/
def Value.lowerItems : List Value → List Json
  | [] => []
  | v :: rest => v.lower :: Value.lowerItems rest

/- Lower operands. -/
def Value.lowerOperands : List Value → List Json
  | [] => []
  | v :: rest =>
      v.operandForm v.lower :: Value.lowerOperands rest

/- Lower the entries of a mapping. -/
def Value.lowerEntries :
    List (String × Value) → List (String × Json)
  | [] => []
  | (name, v) :: rest =>
      (name, v.lower) :: Value.lowerEntries rest

end

/- The text of a value in one line. -/
def Value.jsonText (v : Value) : String :=
  v.lower.compact

/- The text of an expression in one line. -/
def Expression.text (e : Expression) : String :=
  e.encode.compact

------------------------------------------------------------
-- Depth
------------------------------------------------------------

mutual

/- The depth of a value; only expressions have one. -/
def Value.depth : Value → Nat
  | .expr e => Expression.depth e
  | _ => 0

/- The number of expressions nested as direct operands. -/
def Expression.depth : Expression → Nat
  | .pass v => 1 + v.depth
  | .node _ operands => 1 + Value.operandsDepth operands

/- The greatest depth among operands. -/
def Value.operandsDepth : List Value → Nat
  | [] => 0
  | v :: rest => max v.depth (Value.operandsDepth rest)

end

end MapStyle
