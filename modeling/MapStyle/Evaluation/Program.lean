import MapStyle.Evaluation.Recipe

/-
  This file defines the execution of programs: statements
  outside of layers declare sources and layers, include other
  programs, and set properties of the document.

  Key definitions include:
    * `Program.runTopLevel`
    * `Program.runWithin`
    * `Program.run`
    * `Sheet.load`
-/

namespace MapStyle

namespace Sheet

variable {α : Type}

/- Take the outcome of a check. -/
def check
    (outcome : Except CompileError α) : Sheet Failure α :=
  traced (Traced.ofExcept (outcome.mapError .compile))

/- Evaluate outside of every layer. -/
def evaluated
    (evaluation : Scope → Evaluation α) : Sheet Failure α :=
  fun s =>
    traced
      ((evaluation (Scope.topLevel s.sheet)).mapError .compile) s

end Sheet

namespace Program

/- Includes nested deeper than this are taken to be cyclic. -/
def maxIncludes : Nat := 32

------------------------------------------------------------
-- Statements
------------------------------------------------------------

/- A statement that takes no block. -/
def refuseBlock
    (name : String)
    (block : Option (List Statement)) : Sheet Failure Unit :=
  match block with
  | none => pure ()
  | some _ => Sheet.check (Arguments.fail (.blockNotTaken name))

/- Declare a source. -/
def runSource
    (args : List Value)
    (block : Option (List Statement)) : Sheet Failure Unit := do
  refuseBlock "source" block
  let (name, options) ←
    Sheet.check (Arguments.nameAndOptions args "source")
  Sheet.modifySheet fun sheet => sheet.declareSource name options

/- Define a layer. -/
def runLayer
    (args : List Value)
    (block : Option (List Statement)) : Sheet Failure Unit := do
  let (id, options) ←
    Sheet.check (Arguments.nameAndOptions args "layer")
  Sheet.layer id options (Body.runBlock Recipe.runner block)

/- Include another text, in a given way. -/
def runInclude
    (splice : String → Sheet Failure Unit)
    (args : List Value)
    (block : Option (List Statement)) : Sheet Failure Unit := do
  refuseBlock "include" block
  let file ← Sheet.check (Arguments.text args 0 "include")
  splice file

/- Set a property of the document to the first argument. -/
def runProperty
    (name : String)
    (args : List Value)
    (block : Option (List Statement)) : Sheet Failure Unit := do
  refuseBlock name block
  Sheet.modifySheet fun sheet =>
    sheet.setProperty name (args.head?.getD .null)

/- Run a statement; its arguments are evaluated first. -/
def runStatement
    (splice : String → Sheet Failure Unit)
    (s : Statement) : Sheet Failure Unit := do
  let args ←
    Sheet.evaluated fun scope => scope.evaluateArguments s.args
  match s.name with
  | "source" => runSource args s.block
  | "layer" => runLayer args s.block
  | "include" => runInclude splice args s.block
  | name => runProperty name args s.block

/- Run statements in order, up to the first that fails. -/
def runTopLevel
    (splice : String → Sheet Failure Unit) :
    Program → Sheet Failure Unit
  | [] => pure ()
  | s :: rest => do
      runStatement splice s
      runTopLevel splice rest

------------------------------------------------------------
-- Includes
------------------------------------------------------------

/- The program in an included text. -/
def included
    (texts : Texts)
    (file : String) : Sheet Failure Program := do
  match texts file with
  | .error cause =>
      Sheet.check (.error (.unreadable file cause))
  | .ok text => do
      Sheet.traced (Traced.emit (.including file))
      match Program.read text with
      | .error e => throw (.parse e)
      | .ok program => pure program

/- Run a program with includes nested at most so deep. -/
def runWithin
    (texts : Texts) : Nat → Program → Sheet Failure Unit
  | 0 =>
      runTopLevel fun file =>
        Sheet.check
          (Arguments.fail (.includeTooDeep file maxIncludes))
  | bound + 1 =>
      runTopLevel fun file => do
        let program ← included texts file
        runWithin texts bound program

/- Run a program. -/
def run
    (texts : Texts)
    (program : Program) : Sheet Failure Unit :=
  runWithin texts maxIncludes program

end Program

namespace Sheet

/- Read a text as a program and run it. -/
def load
    (texts : Texts)
    (source : String) : Sheet Failure Unit :=
  match Program.read source with
  | .error e => throw (.parse e)
  | .ok program => Program.run texts program

end Sheet

end MapStyle
