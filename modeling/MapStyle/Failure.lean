import MapStyle.Program.Position
import MapStyle.Program.Term
import MapStyle.Property.RenderType
import MapStyle.ReadError
import MapStyle.Value

/-
  This file defines the causes for which a program cannot be
  evaluated or a stylesheet cannot be compiled, and their
  wording.

  Key definitions include:
    * `ArgumentError`
    * `CompileError`
    * `Failure`
    * `Failure.message`
    * `Failure.report`
-/

namespace MapStyle

------------------------------------------------------------
-- Arguments
------------------------------------------------------------

/- What is wrong with the arguments of a name or an operator. -/
inductive ArgumentError
  | blockNotTaken (name : String)
  | missing (name : String) (place : Nat)
  | notText (name : String) (got : Value)
  | notNumber (name : String) (got : Value)
  | notColor (name : String)
  | noSuchColor (name : String) (got : Int64)
  | wrongCount (name : String) (expected got : Nat)
  | nameAndOptions (name : String) (got : Nat)
  | includeTooDeep (file : String) (limit : Nat)
  | extensionTooDeep (name : String) (limit : Nat)
  | badBound (got : Value)
  | outsideLayer
  | unknownMethod (name : String)
  | overflow (left : Int64) (op : BinaryOp) (right : Int64)
  | divisionByZero
  | negationOverflow (got : Int64)
  | notNegatable (got : Value)
  | propertyAsValue (name : String)
  | extensionAsValue (name : String)

/- The name of an operator. -/
def BinaryOp.name : BinaryOp → String
  | .add => "Add"
  | .sub => "Sub"
  | .mul => "Mul"
  | .div => "Div"
  | .mod => "Mod"
  | .pow => "Pow"
  | .eq => "Eq"
  | .ne => "Ne"
  | .lt => "Lt"
  | .le => "Le"
  | .gt => "Gt"
  | .ge => "Ge"
  | .and => "And"
  | .or => "Or"

/- The decimal text of a natural. -/
def countText (n : Nat) : String :=
  String.ofList (Decimal.naturalText n)

/- The decimal text of an integer. -/
def integerText (n : Int64) : String :=
  String.ofList (Decimal.integerText n.toInt)

/- The sixty-four bits of an integer in base sixteen. -/
def bitsText (n : Int64) : String :=
  "0x" ++ String.ofList (Text.hexadecimal n.toUInt64.toNat)

namespace ArgumentError

/- A name as it is quoted in messages. -/
def quote (name : String) : String :=
  "`" ++ name ++ "`"

/- The wording of an error. -/
def message : ArgumentError → String
  | .blockNotTaken name =>
      quote name ++ " does not take a block"
  | .missing name place =>
      name ++ " requires argument " ++ countText place
  | .notText name got =>
      name ++ " expects a string, got " ++ got.jsonText
  | .notNumber name got =>
      name ++ " expects a number, got " ++ got.jsonText
  | .notColor name => name ++ " expects a color"
  | .noSuchColor name got =>
      name ++ ": " ++ bitsText got ++ " is not a color"
  | .wrongCount name expected got =>
      name ++ " takes " ++ countText expected
        ++ (if expected = 1 then " argument" else " arguments")
        ++ ", got " ++ countText got
  | .nameAndOptions name got =>
      name ++ " takes a name and options, got "
        ++ countText got ++ " arguments"
  | .includeTooDeep file limit =>
      "include " ++ quote file ++ " nested more than "
        ++ countText limit ++ " deep"
  | .extensionTooDeep name limit =>
      "extension " ++ quote name ++ " nested more than "
        ++ countText limit ++ " deep"
  | .badBound got =>
      "zoom bound must be a number, got " ++ got.jsonText
  | .outsideLayer =>
      "current_value is only available inside a layer"
  | .unknownMethod name => "unknown method `." ++ name ++ "`"
  | .overflow left op right =>
      "integer overflow in " ++ integerText left ++ " "
        ++ op.name ++ " " ++ integerText right
  | .divisionByZero => "division by zero"
  | .negationOverflow got =>
      "integer overflow negating " ++ integerText got
  | .notNegatable got => "can't negate " ++ got.jsonText
  | .propertyAsValue name =>
      "property " ++ quote name
        ++ " can't be used as a value; use current_value(:"
        ++ name ++ ")"
  | .extensionAsValue name =>
      "extension " ++ quote name
        ++ " can't be used as a value"

end ArgumentError

------------------------------------------------------------
-- Compilation
------------------------------------------------------------

/- Why a program cannot be evaluated or a sheet compiled. -/
inductive CompileError
  | unclassifiedProperty (layer property : String)
  | typeConflict
    (layer property : String)
    (settled : RenderType)
    (settledBy : String)
  | unknownIdentifier (name : String)
  | argument (cause : ArgumentError)
  | unreadable (path : String) (cause : ReadError)

namespace CompileError

/- The wording of an error. -/
def message : CompileError → String
  | .unclassifiedProperty layer property =>
      "layer `" ++ layer ++ "`: `" ++ property
        ++ "` is not a layout, paint or layer property"
  | .typeConflict layer property settled settledBy =>
      "layer `" ++ layer ++ "`: `" ++ property
        ++ "` conflicts with type `" ++ settled.name
        ++ "` deduced from `" ++ settledBy ++ "`"
  | .unknownIdentifier name => "Unknown identifier: " ++ name
  | .argument cause => "Argument error: " ++ cause.message
  | .unreadable path cause =>
      "include `" ++ path ++ "`: " ++ cause.message

end CompileError

------------------------------------------------------------
-- All failures
------------------------------------------------------------

/- A text that cannot be read, or a program that fails. -/
inductive Failure
  | parse (error : ParseError)
  | compile (error : CompileError)

namespace Failure

/- The wording of a failure. -/
def message : Failure → String
  | .parse e => e.message
  | .compile e => e.message

/- The wording of a failure with the stage that it belongs to. -/
def report : Failure → String
  | .parse e => "Parse error: " ++ e.message
  | .compile e => "Compile error: " ++ e.message

/- The wordings of a failure and of its causes, outermost first. -/
def chain (failure : Failure) : List String :=
  let causes :=
    match failure with
    | .compile (.unreadable _ cause) => [cause.message]
    | _ => []
  failure.report :: failure.message :: causes

end Failure

end MapStyle
