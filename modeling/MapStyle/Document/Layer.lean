import MapStyle.Layer

/-
  This file defines the written form of a layer.

  Key definitions include:
    * `Layer.Parts`
    * `Layer.gather`
    * `Layer.write?`
-/

namespace MapStyle

namespace Layer

------------------------------------------------------------
-- Values
------------------------------------------------------------

/- Whether characters occur in a row in others. -/
def occursIn (part : List Char) : List Char → Bool
  | [] => part.isEmpty
  | c :: rest => part.isPrefixOf (c :: rest) || occursIn part rest

/- Whether a name is that of a color. -/
def isColorName (name : String) : Bool :=
  occursIn "-color".toList name.toList

/-
  The written form of a property: integers are written as
  colors where the name is that of a color.
-/
def writeProperty
    (name : String)
    (value : Value) : Json :=
  match value with
  | .int n =>
      if 0 ≤ n.toInt ∧ isColorName name then
        .text (String.ofList (Color.numberText n.toInt.toNat))
      else
        value.lower
  | v => v.lower

/-
  The bounds of a zoom. A single level is both bounds; a range
  has the bounds that it has.
-/
def zoomBounds : Value → Option Json × Option Json
  | .null => (none, none)
  | .range r => (r.lower.map .number, r.upper.map .number)
  | v => (some v.lower, some v.lower)

------------------------------------------------------------
-- Parts
------------------------------------------------------------

/- The parts of a written layer. -/
structure Parts where
  layout : Bag Json
  paint : Bag Json
  fields : Bag Json
  settled : Option Settled

/- Nothing gathered yet. -/
def Parts.empty : Parts :=
  ⟨.empty, .empty, .empty, none⟩

/- Put a property into the part that its class names. -/
def gatherOne
    (id : String)
    (parts : Parts)
    (key : String)
    (value : Value) : Except CompileError Parts :=
  let name := Spelling.hyphenated key
  let json := writeProperty name value
  match Property.classify? key with
  | some .layout => do
      let settled ← settle parts.settled id name
      pure { parts with
        layout := parts.layout.insert name json
        settled := settled }
  | some .paint => do
      let settled ← settle parts.settled id name
      pure { parts with
        paint := parts.paint.insert name json
        settled := settled }
  | some .topLevel =>
      .ok { parts with fields := parts.fields.insert name json }
  | some .hidden =>
      .ok { parts with fields := parts.fields.insert name json }
  | none => .error (.unclassifiedProperty id name)

/- Gather properties in order; the zoom is left out. -/
def gather
    (id : String)
    (parts : Parts) :
    List (String × Value) → Except CompileError Parts
  | [] => .ok parts
  | (key, value) :: rest =>
      if key = "zoom" then
        gather id parts rest
      else do
        let more ← gatherOne id parts key value
        gather id more rest

------------------------------------------------------------
-- The written layer
------------------------------------------------------------

/- Write a member if it is there. -/
def writeOptional
    (written : Bag Json)
    (name : String) : Option Json → Bag Json
  | none => written
  | some json => written.insert name json

/- Write a part unless it is empty. -/
def writePart
    (written : Bag Json)
    (name : String)
    (part : Bag Json) : Bag Json :=
  if part.isEmpty then
    written
  else
    written.insert name (Json.ofBag part)

/- The members of a written layer, in their order. -/
def Parts.members
    (parts : Parts)
    (layer : Layer) : Bag Json :=
  let written :=
    writePart (writePart .empty "layout" parts.layout) "paint"
      parts.paint
  let written := written.overlay parts.fields.entries
  let written :=
    writeOptional written "type"
      (parts.settled.map fun s => .text s.renderType.name)
  let written :=
    writeOptional written "filter"
      (layer.filter.map Expression.encode)
  let (low, high) :=
    match layer.properties.get? "zoom" with
    | some v => zoomBounds v
    | none => (none, none)
  writeOptional (writeOptional written "minzoom" low) "maxzoom"
    high

/-
  The written form of a layer. A layer with neither layout nor
  paint has no effect and is not written.
-/
def write? (layer : Layer) :
    Except CompileError (Option (Bag Json)) := do
  let parts ←
    gather layer.id Parts.empty layer.properties.entries
  if parts.layout.isEmpty && parts.paint.isEmpty then
    pure none
  else
    pure (some (parts.members layer))

end Layer

end MapStyle
