import MapStyle.Bag
import MapStyle.Expression.Vocabulary
import MapStyle.Property

/-
  This file defines what a bare name can mean. Extensions go
  before functions, functions before properties, and every
  other name reads a field of the feature.

  Key definitions include:
    * `Meaning`
    * `Meaning.ofName`
    * `Meaning.resolve`
-/

namespace MapStyle

/- What a bare name refers to. -/
inductive Meaning
  | extension
  | function (name : String)
  | property (cls : PropertyClass)
  | field
deriving DecidableEq

namespace Meaning

/- The meaning of a name that is no extension. -/
def ofName (name : String) : Meaning :=
  if Vocabulary.isFunction name then
    .function name
  else
    match Property.classify? name with
    | some cls =>
        if cls.isSettable then .property cls else .field
    | none => .field

/- The meaning of a name where extensions are registered. -/
def resolve
    {α : Type}
    (extensions : Bag α)
    (name : String) : Meaning :=
  if extensions.contains name then
    .extension
  else
    ofName name

/- The wording of a meaning. -/
def text : Meaning → String
  | .extension => "Extension"
  | .function name => "Builtin(" ++ name ++ ")"
  | .property .layout => "Property(Layout)"
  | .property .paint => "Property(Paint)"
  | .property .topLevel => "Property(TopLevel)"
  | .property .hidden => "Property(Hidden)"
  | .field => "FieldAccess"

end Meaning

end MapStyle
