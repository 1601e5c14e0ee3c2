/-
  This file defines programs as they are written: statements
  with arguments and blocks, and the terms in arguments.

  Key definitions include:
    * `Literal`
    * `BinaryOp`
    * `UnaryOp`
    * `Term`
    * `Argument`
    * `Statement`
    * `Program`
-/

namespace MapStyle

------------------------------------------------------------
-- Terms
------------------------------------------------------------

/- A value that is written out. -/
inductive Literal
  | text (value : String)
  | int (value : Int64)
  | float (value : Float)
  | bool (value : Bool)
  | null

/- An operator between two terms. -/
inductive BinaryOp
  | add
  | sub
  | mul
  | div
  | mod
  | pow
  | eq
  | ne
  | lt
  | le
  | gt
  | ge
  | and
  | or
deriving DecidableEq

/- An operator in front of a term. -/
inductive UnaryOp
  | neg
  | not
deriving DecidableEq

mutual

/-
  A term: a bare name, a literal, a list, a range with either
  bound, a call, a method of a term, an index into a term, or
  an operator with its operands.
-/
inductive Term
  | ident (name : String)
  | literal (value : Literal)
  | list (items : List Term)
  | range (lower upper : Option Term)
  | call (name : String) (args : List Argument)
  | method (subject : Term) (name : String) (args : List Argument)
  | index (subject : Term) (items : List Term)
  | binary (left : Term) (op : BinaryOp) (right : Term)
  | unary (op : UnaryOp) (operand : Term)

/- An argument, which may have a keyword. -/
inductive Argument
  | positional (value : Term)
  | keyword (name : String) (value : Term)

end

instance : Inhabited Term :=
  ⟨.literal .null⟩

------------------------------------------------------------
-- Statements
------------------------------------------------------------

/- A name with arguments and, possibly, a block. -/
inductive Statement
  | mk
    (name : String)
    (args : List Argument)
    (block : Option (List Statement))

namespace Statement

/- The name of a statement. -/
def name : Statement → String
  | .mk name _ _ => name

/- The arguments of a statement. -/
def args : Statement → List Argument
  | .mk _ args _ => args

/- The block of a statement, if it has one. -/
def block : Statement → Option (List Statement)
  | .mk _ _ block => block

end Statement

/- A program is a list of statements. -/
abbrev Program :=
  List Statement

end MapStyle
