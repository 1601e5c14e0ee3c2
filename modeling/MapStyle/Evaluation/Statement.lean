import MapStyle.Evaluation.Term

/-
  This file defines the execution of the statements in the
  body of a layer.

  Key definitions include:
    * `Runner`
    * `Build.call`
    * `Body.runStatement`
    * `Body.runBlock`
-/

namespace MapStyle

/-
  The way in which an extension is run: its name, its recipe,
  and the arguments of its call.
-/
abbrev Runner :=
  String → Recipe → List Value → Build Failure Unit

------------------------------------------------------------
-- Names as statements
------------------------------------------------------------

namespace Build

/- Take the outcome of a check. -/
def check
    {α : Type}
    (outcome : Except CompileError α) : Build Failure α :=
  traced (Traced.ofExcept (outcome.mapError .compile))

/- Assign a property. -/
def assign
    (name : String)
    (value : Value) : Build Failure Unit :=
  EStateM.adaptExcept .compile (set name value)

/- A single argument is the value; several are a list. -/
def assignedValue : List Value → Value
  | [v] => v
  | args => .list args

/-
  A name that is no extension, as a statement: a property is
  assigned, anything else has a value.
-/
def callPlain
    (name : String)
    (args : List Value) :
    Meaning → Build Failure (Option Value)
  | .extension => pure none
  | .function f => do
      let v ← check (Scope.functionCall f args)
      pure (some v)
  | .property _ => do
      assign name (assignedValue args)
      pure none
  | .field => pure (some (.expr (Expression.get name)))

/-
  A name as a statement: an extension runs, a property is
  assigned, anything else has a value.
-/
def call
    (run : Runner)
    (name : String)
    (args : List Value) : Build Failure (Option Value) :=
  fun w =>
    match w.sheet.extensions.get? name with
    | some recipe =>
        (do
          emit (.resolved name .extension)
          run name recipe args
          pure none : Build Failure (Option Value)) w
    | none =>
        let meaning := Meaning.ofName name
        (do
          emit (.resolved name meaning)
          callPlain name args meaning) w

/- Evaluate in the scope of the layer. -/
def evaluated
    {α : Type}
    (evaluation : Scope → Evaluation α) : Build Failure α :=
  fun w =>
    traced ((evaluation (Scope.inLayer w)).mapError .compile) w

end Build

------------------------------------------------------------
-- Statements
------------------------------------------------------------

namespace Body

/- A statement that takes no block. -/
def refuseBlock
    (name : String)
    (block : Option (List Statement)) : Build Failure Unit :=
  match block with
  | none => pure ()
  | some _ => Build.check (Arguments.fail (.blockNotTaken name))

/-
  A statement without a block of its own meaning, after its
  arguments have been evaluated.
-/
def runSimple
    (run : Runner)
    (name : String)
    (args : List Value) : Build Failure Unit :=
  match name with
  | "uncascaded" => Build.uncascaded args
  | "filter" => Build.filter args
  | "id" => do
      let text ← Build.check (Arguments.text args 0 "id")
      Build.rename text
  | "suppress" => Build.suppress
  | name => do
      match ← Build.call run name args with
      | some v => Build.emit (.discarded name v)
      | none => pure ()

mutual

/-
  Run a statement: its arguments are evaluated first. Two
  statements take a block, which runs on the refined layer or
  inside of the cascade.
-/
def runStatement
    (run : Runner) : Statement → Build Failure Unit
  | .mk name args block => do
      let values ←
        Build.evaluated fun scope => scope.evaluateArguments args
      match name with
      | "on" => Build.refine values (runBlock run block)
      | "cascade" => Build.cascade values (runBlock run block)
      | name => do
          refuseBlock name block
          runSimple run name values

/- Run statements in order, up to the first that fails. -/
def runStatements
    (run : Runner) : List Statement → Build Failure Unit
  | [] => pure ()
  | s :: rest => do
      runStatement run s
      runStatements run rest

/- Run a block; an absent one does nothing. -/
def runBlock
    (run : Runner) : Option (List Statement) → Build Failure Unit
  | none => pure ()
  | some statements => runStatements run statements

end

end Body

end MapStyle
