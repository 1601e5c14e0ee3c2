import MapStyle.Bag
import MapStyle.Number

/-
  This file defines JSON trees whose objects keep the order
  of their members.

  Key definitions include:
    * `Json`
    * `Json.ofMembers`
    * `Json.ofNumber?`
-/

namespace MapStyle

/- A JSON tree. -/
inductive Json
  | null
  | bool (value : Bool)
  | number (value : Number)
  | text (value : String)
  | array (items : List Json)
  | object (members : List (String × Json))

instance : Inhabited Json :=
  ⟨.null⟩

namespace Json

/- The object that holds the entries of a bag. -/
def ofBag (bag : Bag Json) : Json :=
  .object bag.entries

/-
  The object that results from writing members one after
  another: a name that recurs keeps its first place and takes
  the last value.
-/
def ofMembers (members : List (String × Json)) : Json :=
  ofBag (Bag.ofList members)

/- An absent number is null. -/
def ofNumber? : Option Number → Json
  | none => .null
  | some n => .number n

end Json

end MapStyle
