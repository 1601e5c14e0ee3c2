import MapStyle.Evaluation.ColorMethod
import MapStyle.Evaluation.Operator
import MapStyle.Stylesheet

/-
  This file defines the evaluation of terms. Names are
  resolved against the extensions in scope; inside a layer
  its properties can be read.

  Key definitions include:
    * `Scope`
    * `Scope.valueOf`
    * `Scope.call`
    * `Scope.method`
    * `Scope.evaluate`
    * `Scope.evaluateArguments`
-/

namespace MapStyle

/- What a term can refer to. -/
structure Scope where
  extensions : Bag Recipe
  layer : Option Layer

/- Evaluations, which log the names that they resolve. -/
abbrev Evaluation (α : Type) :=
  Traced CompileError α

namespace Scope

------------------------------------------------------------
-- Names
------------------------------------------------------------

/- The scope outside of every layer. -/
def topLevel (sheet : Stylesheet) : Scope :=
  ⟨sheet.extensions, none⟩

/- The scope inside of the layer that is being built. -/
def inLayer (w : Workbench) : Scope :=
  ⟨w.sheet.extensions, some w.layer⟩

/- The call of a function of the vocabulary. -/
def functionCall
    (name : String)
    (args : List Value) : Except CompileError Value :=
  match Expression.function? name args with
  | some e => .ok (.expr e)
  | none => .error (.unknownIdentifier name)

/-
  The value of a meaning. Properties and extensions have no
  value.
-/
def valueOfMeaning
    (name : String)
    (args : List Value) : Meaning → Except CompileError Value
  | .extension => Arguments.fail (.extensionAsValue name)
  | .function f => functionCall f args
  | .property _ => Arguments.fail (.propertyAsValue name)
  | .field => .ok (.expr (Expression.get name))

/- The value of a name. -/
def valueOf
    (extensions : Bag Recipe)
    (name : String)
    (args : List Value) : Evaluation Value :=
  let meaning := Meaning.resolve extensions name
  ⟨valueOfMeaning name args meaning, [.resolved name meaning]⟩

------------------------------------------------------------
-- Calls and methods
------------------------------------------------------------

/- The value of a property of the layer in scope. -/
def currentValue
    (scope : Scope)
    (args : List Value)
    (name : String) : Except CompileError Value :=
  match scope.layer with
  | none => Arguments.fail .outsideLayer
  | some layer => do
      let property ← Arguments.text args 0 name
      pure ((layer.get? property).getD .null)

/- A color from three numbers. -/
def colorOf
    (make : Float → Float → Float → Color)
    (args : List Value)
    (name : String) : Except CompileError Value := do
  let (h, s, l) ← Arguments.threeNumbers args name
  pure (.color (make h s l))

/- A call may not read a field. -/
def refuseField
    (name : String) : Value → Except CompileError Value
  | .expr e =>
      if e.operator? = some "get"
          ∧ Vocabulary.isFunction name = false then
        .error (.unknownIdentifier name)
      else
        .ok (.expr e)
  | v => .ok v

/- The value of a call. -/
def call
    (scope : Scope)
    (name : String)
    (args : List Value) : Evaluation Value :=
  if name = "current_value" then
    Traced.ofExcept (scope.currentValue args name)
  else if name = "hsl" then
    Traced.ofExcept (colorOf Color.ofHsl args name)
  else if name = "hsluv" then
    Traced.ofExcept (colorOf Color.ofHsluv args name)
  else do
    let v ← valueOf scope.extensions name args
    Traced.ofExcept (refuseField name v)

/- The expression of a method. -/
def expressionMethod
    (subject : Expression)
    (name : String)
    (args : List Value) : Except CompileError Value :=
  if name = "in" ∨ name = "is_in" then
    .ok (.expr (subject.isIn args))
  else if name = "is" then do
    let v ← Arguments.single args name
    pure (.expr (subject.apply "eq" [v]))
  else if name = "at" then do
    let v ← Arguments.single args name
    pure (.expr (subject.itemAt v))
  else if name = "index_of" then do
    let v ← Arguments.single args name
    pure (.expr (subject.apply "index_of" [v]))
  else
    match subject.method? name args with
    | some e => .ok (.expr e)
    | none => Arguments.fail (.unknownMethod name)

/- The value of a method; colors have methods of their own. -/
def method
    (subject : Value)
    (name : String)
    (args : List Value) : Except CompileError Value :=
  match ColorMethod.ofName? name, ColorMethod.subject? subject with
  | some m, some c => do
      let d ← m.apply c args name
      pure (.color d)
  | _, _ => expressionMethod subject.toExpression name args

------------------------------------------------------------
-- Terms
------------------------------------------------------------

/- The value of a literal. -/
def literalValue : Literal → Value
  | .text s => .text s
  | .int n => .int n
  | .float x => .float x
  | .bool b => .bool b
  | .null => .null

/- Two names combine conditions when they are indexed. -/
def combinator? : Term → Option Combinator
  | .ident name =>
      if name = "any" then
        some .any
      else if name = "all" then
        some .all
      else
        none
  | _ => none

/- The bound of a range must be a number. -/
def boundOf (v : Value) : Except CompileError Number :=
  match v.number? with
  | some n => .ok n
  | none => Arguments.fail (.badBound v)

mutual

/- The value of a term. -/
def evaluate (scope : Scope) : Term → Evaluation Value
  | .literal value => pure (literalValue value)
  | .ident name => valueOf scope.extensions name []
  | .list items => do
      let values ← evaluateAll scope items
      pure (.list values)
  | .range lower upper => do
      let low ← evaluateBound scope lower
      let high ← evaluateBound scope upper
      pure (.range ⟨low, high⟩)
  | .call name args => do
      let values ← evaluateEach scope args
      scope.call name (Arguments.assemble values)
  | .method subject name args => do
      let receiver ← evaluate scope subject
      let values ← evaluateEach scope args
      Traced.ofExcept
        (method receiver name (Arguments.assemble values))
  | .index subject items => do
      let values ← evaluateAll scope items
      match combinator? subject with
      | some op => pure (.expr (.node op.operator values))
      | none => do
          let receiver ← evaluate scope subject
          let index ←
            Traced.ofExcept (Arguments.single values "[]")
          pure (.expr (receiver.toExpression.itemAt index))
  | .binary left op right => do
      let a ← evaluate scope left
      let b ← evaluate scope right
      Traced.ofExcept (BinaryOp.apply a op b)
  | .unary op operand => do
      let v ← evaluate scope operand
      Traced.ofExcept (op.apply v)

/- The values of terms, left to right. -/
def evaluateAll
    (scope : Scope) : List Term → Evaluation (List Value)
  | [] => pure []
  | t :: rest => do
      let v ← evaluate scope t
      let vs ← evaluateAll scope rest
      pure (v :: vs)

/- The value of a bound, which may be absent. -/
def evaluateBound
    (scope : Scope) : Option Term → Evaluation (Option Number)
  | none => pure none
  | some t => do
      let v ← evaluate scope t
      let n ← Traced.ofExcept (boundOf v)
      pure (some n)

/- The values of arguments with their keywords. -/
def evaluateEach
    (scope : Scope) :
    List Argument → Evaluation (List (Option String × Value))
  | [] => pure []
  | .positional t :: rest => do
      let v ← evaluate scope t
      let vs ← evaluateEach scope rest
      pure ((none, v) :: vs)
  | .keyword name t :: rest => do
      let v ← evaluate scope t
      let vs ← evaluateEach scope rest
      pure ((some name, v) :: vs)

end

/- The argument list of a call. -/
def evaluateArguments
    (scope : Scope)
    (args : List Argument) : Evaluation (List Value) := do
  let values ← evaluateEach scope args
  pure (Arguments.assemble values)

end Scope

end MapStyle
