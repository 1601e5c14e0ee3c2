import MapStyle.Log

/-
  This file defines references between written layers: a
  layer that shares certain members with an earlier one refers
  to the first such layer in their stead.

  Key definitions include:
    * `Reference.fields`
    * `Reference.shared`
    * `Reference.collapse`
-/

namespace MapStyle

namespace Reference

/- The members that layers share by a reference. -/
def fields : List String :=
  ["type", "source", "source-layer", "minzoom", "maxzoom",
   "filter", "layout"]

/- The members of a layer that a reference would stand for. -/
def shared (layer : Bag Json) : List (String × Json) :=
  fields.filterMap fun field =>
    (layer.get? field).map fun json => (field, json)

/- The text by which shared members are compared. -/
def sharedText (layer : Bag Json) : String :=
  (Json.object (shared layer)).compact

/- The text by which a written layer is known. -/
def id? (layer : Bag Json) : Option String :=
  (layer.get? "id").map fun json =>
    match json with
    | .text s => s
    | json => json.compact

/- A layer with a reference in the place of shared members. -/
def refer
    (layer : Bag Json)
    (target : String) : Bag Json :=
  (fields.foldl Bag.erase layer).insert "ref" (.text target)

/-
  Replace shared members by references. The table holds the
  first layer for each text of shared members seen so far.
-/
def collapseFrom
    {ε : Type}
    (seen : List (String × String)) :
    List (Bag Json) → Traced ε (List (Bag Json))
  | [] => pure []
  | layer :: rest =>
      match id? layer with
      | none => do
          let more ← collapseFrom seen rest
          pure (layer :: more)
      | some id =>
          match seen.lookup (sharedText layer) with
          | some target => do
              Traced.emit (.referring id target)
              let more ← collapseFrom seen rest
              pure (refer layer target :: more)
          | none => do
              let more ←
                collapseFrom ((sharedText layer, id) :: seen) rest
              pure (layer :: more)

/- Replace shared members by references. -/
def collapse
    {ε : Type}
    (layers : List (Bag Json)) : Traced ε (List (Bag Json)) :=
  collapseFrom [] layers

end Reference

end MapStyle
