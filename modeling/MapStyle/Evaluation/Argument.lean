import MapStyle.Failure

/-
  This file defines the checks of arguments.

  Key definitions include:
    * `Arguments.text`
    * `Arguments.number`
    * `Arguments.single`
    * `Arguments.nameAndOptions`
    * `Arguments.assemble`
-/

namespace MapStyle

namespace Arguments

/- The error of a wrong argument. -/
def fail
    {α : Type}
    (cause : ArgumentError) : Except CompileError α :=
  .error (.argument cause)

------------------------------------------------------------
-- One argument
------------------------------------------------------------

/- The argument at an index, which must be a string. -/
def text
    (args : List Value)
    (index : Nat)
    (name : String) : Except CompileError String :=
  match args[index]? with
  | some (.text s) => .ok s
  | some v => fail (.notText name v)
  | none => fail (.missing name (index + 1))

/- A value that must be a number. -/
def asNumber
    (v : Value)
    (name : String) : Except CompileError Float :=
  match v.float? with
  | some x => .ok x
  | none => fail (.notNumber name v)

/- The argument at an index, which must be a number. -/
def number
    (args : List Value)
    (index : Nat)
    (name : String) : Except CompileError Float :=
  match args[index]? with
  | some v => asNumber v name
  | none => fail (.missing name (index + 1))

/- The only argument. -/
def single
    (args : List Value)
    (name : String) : Except CompileError Value :=
  match args with
  | [v] => .ok v
  | args => fail (.wrongCount name 1 args.length)

/- Three numbers. -/
def threeNumbers
    (args : List Value)
    (name : String) :
    Except CompileError (Float × Float × Float) :=
  if args.length = 3 then do
    let x ← number args 0 name
    let y ← number args 1 name
    let z ← number args 2 name
    pure (x, y, z)
  else
    fail (.wrongCount name 3 args.length)

------------------------------------------------------------
-- All arguments
------------------------------------------------------------

/-
  Take off a mapping that ends the arguments; a mapping that
  stands alone is no options.
-/
def splitOptions
    (args : List Value) :
    List Value × List (String × Value) :=
  match args.getLast? with
  | some (.map entries) =>
      if args.length > 1 then
        (args.dropLast, entries)
      else
        (args, [])
  | _ => (args, [])

/- A name with options after it. -/
def nameAndOptions
    (args : List Value)
    (name : String) :
    Except CompileError (String × List (String × Value)) :=
  let (args, options) := splitOptions args
  do
    let first ← text args 0 name
    if args.length > 1 then
      fail (.nameAndOptions name args.length)
    else
      pure (first, options)

/-
  The argument list of a call: values without keywords in
  order, and those with keywords as one mapping at the end.
-/
def assemble
    (args : List (Option String × Value)) : List Value :=
  let plain :=
    args.filterMap fun a =>
      match a.1 with
      | none => some a.2
      | some _ => none
  let keywords :=
    args.filterMap fun a => a.1.map fun name => (name, a.2)
  if keywords.isEmpty then
    plain
  else
    plain ++ [.map (Bag.ofList keywords).entries]

end Arguments

end MapStyle
