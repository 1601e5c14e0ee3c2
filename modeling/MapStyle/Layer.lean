import MapStyle.Expression.Build
import MapStyle.Failure
import MapStyle.Property
import MapStyle.Text.Alphabetic

/-
  This file defines layers while they are being built: their
  creation from options, the assignment of properties, and
  the derivation of refined layers from them.

  Key definitions include:
    * `Sources`
    * `Cascade`
    * `Settled`
    * `Layer`
    * `Layer.create`
    * `Layer.set`
    * `Layer.refine`
    * `Refinement.siblings`
-/

namespace MapStyle

------------------------------------------------------------
-- Sources
------------------------------------------------------------

/- The options of sources by name, in order of declaration. -/
abbrev Sources :=
  Bag (Bag Value)

namespace Sources

/- Whether the options mark a source as default. -/
def isDefault (options : Bag Value) : Bool :=
  match options.get? "default" with
  | some v => v.isTruthy
  | none => false

/- The first source that is marked as default. -/
def default? (sources : Sources) : Option String :=
  (sources.entries.find? fun s => isDefault s.2).map Prod.fst

/- Whether a name is that of a vector source. -/
def isVector
    (sources : Sources)
    (name : String) : Bool :=
  match (sources.get? name).bind fun o => o.get? "type" with
  | some (.text kind) => kind == "vector"
  | _ => false

end Sources

------------------------------------------------------------
-- Layers
------------------------------------------------------------

/- Properties that later refinements repeat under a condition. -/
structure Cascade where
  condition : Expression
  overrides : Bag Value

/- The render type of a layer and the property that settled it. -/
structure Settled where
  renderType : RenderType
  property : String

/- A layer that is being built. -/
structure Layer where
  properties : Bag Value
  filter : Option Expression
  settled : Option Settled
  written : Bool
  cascades : List Cascade
  active : Option Expression
  uncascaded : Option Expression
  children : Nat

namespace Layer

/- The value of a property, in either spelling of its name. -/
def get?
    (layer : Layer)
    (name : String) : Option Value :=
  layer.properties.get? (Spelling.underscored name)

/- Whether a property has a value that counts as true. -/
def has
    (layer : Layer)
    (key : String) : Bool :=
  match layer.properties.get? key with
  | some v => v.isTruthy
  | none => false

/- Write a property under its kept name. -/
def put
    (layer : Layer)
    (key : String)
    (value : Value) : Layer :=
  { layer with properties := layer.properties.insert key value }

/- The text by which a layer is known. -/
def id (layer : Layer) : String :=
  match layer.properties.get? "id" with
  | some (.text s) => s
  | some v => v.jsonText
  | none => ""

/- The source that a layer names. -/
def source? (layer : Layer) : Option String :=
  (layer.properties.get? "source").bind Value.text?

/- The render type that is settled so far. -/
def renderType? (layer : Layer) : Option RenderType :=
  layer.settled.map Settled.renderType

------------------------------------------------------------
-- Creation
------------------------------------------------------------

/- Fall back to the default source. -/
def withSource
    (layer : Layer)
    (sources : Sources) : Layer :=
  if layer.has "source" then
    layer
  else
    match sources.default? with
    | some name => layer.put "source" (.text name)
    | none => layer

/-
  A layer on a vector source reads the part of the source that
  is named like the layer, unless it says otherwise.
-/
def withSourceLayer
    (layer : Layer)
    (id : String)
    (sources : Sources) : Layer :=
  if layer.has "source_layer" then
    layer
  else
    match layer.source? with
    | some name =>
        if sources.isVector name then
          layer.put "source_layer" (.text id)
        else
          layer
    | none => layer

/- The layer with nothing but properties. -/
def ofProperties (properties : Bag Value) : Layer where
  properties := properties
  filter := none
  settled := none
  written := true
  cascades := []
  active := none
  uncascaded := none
  children := 0

/- A new layer with options as its first properties. -/
def create
    (id : String)
    (options : List (String × Value))
    (sources : Sources) : Layer :=
  let kept :=
    options.map fun o => (Spelling.underscored o.1, o.2)
  let properties := (Bag.ofList kept).insert "id" (.text id)
  ((ofProperties properties).withSource sources).withSourceLayer
    id sources

/- A new layer with the properties of another one. -/
def derive
    (layer : Layer)
    (id : String)
    (sources : Sources) : Layer :=
  { create id layer.properties.entries sources with
    settled := layer.settled }

------------------------------------------------------------
-- Assignment
------------------------------------------------------------

/-
  Settle the render type that a property implies, unless
  another one is settled.
-/
def settle
    (settled : Option Settled)
    (layer property : String) :
    Except CompileError (Option Settled) :=
  match RenderType.ofProperty? property with
  | none => .ok settled
  | some renderType =>
      match settled with
      | none => .ok (some ⟨renderType, property⟩)
      | some s =>
          if s.renderType = renderType then
            .ok settled
          else
            .error
              (.typeConflict layer property s.renderType s.property)

/- Write into the last cascade if it has the condition. -/
def amendLast
    (condition : Expression)
    (key : String)
    (value : Value) : List Cascade → Option (List Cascade)
  | [] => none
  | [c] =>
      if c.condition.same condition then
        some [{ c with overrides := c.overrides.insert key value }]
      else
        none
  | c :: rest =>
      (amendLast condition key value rest).map fun r => c :: r

/- Record a property under a condition. -/
def record
    (cascades : List Cascade)
    (condition : Expression)
    (key : String)
    (value : Value) : List Cascade :=
  match amendLast condition key value cascades with
  | some amended => amended
  | none =>
      cascades
        ++ [⟨condition, (Bag.empty : Bag Value).insert key value⟩]

/-
  Assign a property. Inside of a cascade it is recorded there;
  else it settles the render type that it implies.
-/
def set
    (layer : Layer)
    (name : String)
    (value : Value) : Except CompileError Layer :=
  let key := Spelling.underscored name
  match layer.active with
  | some condition =>
      .ok { layer with
        cascades := record layer.cascades condition key value }
  | none =>
      match Property.classify? key with
      | some cls =>
          if cls.impliesType then do
            let settled ←
              settle layer.settled layer.id (Spelling.hyphenated key)
            pure { layer.put key value with settled := settled }
          else
            .ok (layer.put key value)
      | none => .ok (layer.put key value)

------------------------------------------------------------
-- Refinement
------------------------------------------------------------

/- Whether a value selects zoom levels. -/
def isZoomSelector : Value → Bool
  | .int _ => true
  | .float _ => true
  | .range _ => true
  | _ => false

/- A leading zoom selector, and the conditions after it. -/
def splitZoom : List Value → Option Value × List Value
  | [] => (none, [])
  | v :: rest =>
      if isZoomSelector v then (some v, rest) else (none, v :: rest)

end Layer

/-
  A refinement on its way: the layer that it refines, the
  condition that it shares with its siblings, and its child.
-/
structure Refinement where
  parent : Layer
  condition : Option Expression
  child : Layer

/-
  Begin a refinement. A leading zoom selector becomes the zoom
  of the child; the conditions narrow the filter of the layer,
  and for the child its uncascaded condition as well.
-/
def Layer.refine
    (layer : Layer)
    (args : List Value)
    (sources : Sources) : Refinement :=
  let number := layer.children + 1
  let parent := { layer with children := number }
  let child :=
    layer.derive (layer.id ++ "__" ++ countText number) sources
  let (zoom, conditions) := splitZoom args
  let child :=
    match zoom with
    | some v => child.put "zoom" v
    | none => child
  let condition :=
    Expression.andOptional (Expression.condition? conditions)
      layer.filter
  { parent := parent
    condition := condition
    child :=
      { child with
        cascades := layer.cascades
        filter :=
          Expression.andOptional condition layer.uncascaded } }

namespace Refinement

/- The name of the sibling for the cascade with an index. -/
def siblingId
    (child : Layer)
    (index : Nat) : String :=
  child.id ++ "__" ++ String.ofList (Text.alphabetic index)

/-
  The sibling of a finished child for one cascade: it has the
  condition of the cascade and its overrides.
-/
def sibling
    (r : Refinement)
    (child : Layer)
    (sources : Sources)
    (index : Nat)
    (cascade : Cascade) : Layer :=
  let layer := child.derive (siblingId child index) sources
  { layer with
    filter :=
      Expression.andOptional r.condition (some cascade.condition)
    properties :=
      layer.properties.overlay cascade.overrides.entries }

/- The siblings of a finished child, one for each cascade. -/
def siblings
    (r : Refinement)
    (child : Layer)
    (sources : Sources) : List Layer :=
  r.parent.cascades.mapIdx fun index cascade =>
    r.sibling child sources index cascade

end Refinement

end MapStyle
