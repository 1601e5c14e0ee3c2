import MapStyle.Value

/-
  This file defines recipes: the steps that build a layer as
  data. An extension is a recipe under a name; the arguments
  of its call fill the holes in its values.

  Key definitions include:
    * `Template`
    * `Action`
    * `Step`
    * `Recipe`
-/

namespace MapStyle

------------------------------------------------------------
-- Templates
------------------------------------------------------------

/-
  A value with holes. A term in a template stands for the
  value that it has outside of every layer.
-/
inductive Template
  | constant (value : Value)
  | list (items : List Template)
  | map (entries : List (String × Template))
  | pass (operand : Template)
  | node (operator : String) (operands : List Template)
  | term (source : String)
  | hole (index : Nat)

instance : Inhabited Template :=
  ⟨.constant .null⟩

------------------------------------------------------------
-- Steps
------------------------------------------------------------

mutual

/- What a step does to the layer that is being built. -/
inductive Action
  | set (name : String) (value : Template)
  | update (name : String) (value : Template)
  | rename (name : String)
  | suppress
  | filter (args : List Template)
  | uncascaded (args : List Template)
  | refine (args : List Template) (body : List Step)
  | cascade (args : List Template) (body : List Step)
  | call (name : String) (args : List Template)
  | valueOf (name : String) (args : List Template)
  | currentValue (name : String)
  | literal (args : List Template)
  | any (args : List Template)
  | all (args : List Template)
  | statements (source : String)
  | evaluate (source : String)

/- An action, and whether its failure is caught. -/
inductive Step
  | mk (action : Action) (caught : Bool)

end

instance : Inhabited Action :=
  ⟨.suppress⟩

/- The steps of a body. -/
structure Recipe where
  steps : List Step

end MapStyle
