import MapStyle.Expression.Vocabulary
import MapStyle.Value

/-
  This file defines the ways to build expressions: from the
  vocabulary, as conditions, and by combining conditions
  without deep nesting.

  Key definitions include:
    * `Vocabulary.operator`
    * `Expression.get`
    * `Expression.literal`
    * `Expression.function?`
    * `Expression.method?`
    * `Expression.isIn`
    * `Expression.merge`
    * `Expression.andOptional`
    * `Expression.condition?`
-/

namespace MapStyle

/-
  The operator that a name stands for: the one in the table,
  else the name written with hyphens.
-/
def Vocabulary.operator (name : String) : String :=
  match Vocabulary.operators.lookup name with
  | some operator => operator
  | none => Spelling.hyphenated name

namespace Expression

------------------------------------------------------------
-- Vocabulary
------------------------------------------------------------

/- The operator of a name with its operands. -/
def named
    (name : String)
    (operands : List Value) : Expression :=
  .node (Vocabulary.operator name) operands

/- The value of a field of the feature. -/
def get (field : String) : Expression :=
  .node "get" [.text field]

/-
  Literal values. They are taken together as one list, but a
  single mapping stands alone.
-/
def literal : List Value → Expression
  | [.map entries] => .node "literal" [.map entries]
  | args => .node "literal" [.list args]

/- Every condition holds. -/
def all (conditions : List Value) : Expression :=
  .node "all" conditions

/- Some condition holds. -/
def any (conditions : List Value) : Expression :=
  .node "any" conditions

/- The call of a function, if the name is one. -/
def function?
    (name : String)
    (args : List Value) : Option Expression :=
  if Vocabulary.isFunction name then
    if name = "literal" then
      some (literal args)
    else
      some (named name args)
  else
    none

/- A named operator with a subject as its first operand. -/
def apply
    (subject : Expression)
    (name : String)
    (args : List Value) : Expression :=
  named name (.expr subject :: args)

/- The call of a method, if the name is one. -/
def method?
    (subject : Expression)
    (name : String)
    (args : List Value) : Option Expression :=
  if Vocabulary.isMethod name then
    some (subject.apply name args)
  else
    none

------------------------------------------------------------
-- Lists
------------------------------------------------------------

mutual

/- A list gives its leaves, any other value is a leaf. -/
def leaves : Value → List Value
  | .list items => leavesOfAll items
  | v => [v]

/- The leaves of several values, left to right. -/
def leavesOfAll : List Value → List Value
  | [] => []
  | v :: rest => leaves v ++ leavesOfAll rest

end

/- The item of a list at an index; the index comes first. -/
def itemAt
    (subject : Expression)
    (index : Value) : Expression :=
  .node "at" [index, .expr subject]

/- Membership in the list of all leaves of the values. -/
def isIn
    (subject : Expression)
    (values : List Value) : Expression :=
  .node "in"
    [.expr subject, .expr (literal (leavesOfAll values))]

/- The negation of a condition. -/
def negate (e : Expression) : Expression :=
  .node "!" [.expr e]

end Expression

------------------------------------------------------------
-- Merging
------------------------------------------------------------

/- The two ways to combine conditions. -/
inductive Combinator
  | all
  | any
deriving DecidableEq

/- The operator of a combinator. -/
def Combinator.operator : Combinator → String
  | .all => "all"
  | .any => "any"

namespace Expression

/- The conditions that an expression combines, if it does. -/
def combined?
    (op : Combinator) : Expression → Option (List Value)
  | .pass _ => none
  | .node operator operands =>
      if operator = op.operator then some operands else none

/-
  Combine two conditions. A side that already is a
  combination of the same kind takes the other in: the left
  one appends it, else it is put in front of the right one.
-/
def merge
    (op : Combinator)
    (a b : Expression) : Expression :=
  match a.combined? op with
  | some as => .node op.operator (as ++ [.expr b])
  | none =>
      match b.combined? op with
      | some bs => .node op.operator (.expr a :: bs)
      | none => .node op.operator [.expr a, .expr b]

/- Combine with a condition that may be absent. -/
def mergeOptional
    (op : Combinator)
    (a : Expression) : Option Expression → Expression
  | none => a
  | some b => merge op a b

/- Both conditions hold, each of which may be absent. -/
def andOptional :
    Option Expression → Option Expression → Option Expression
  | none, b => b
  | some a, b => some (mergeOptional .all a b)

/-
  The condition of an argument list: none, the only argument,
  or any of several.
-/
def condition? : List Value → Option Expression
  | [] => none
  | [v] => some v.toExpression
  | args => some (any args)

end Expression

end MapStyle
