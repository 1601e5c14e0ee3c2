import MapStyle.Evaluation.Program
import MapStyle.Proofs.Inheritance

/-
  The layers that a program derives, as a tree that follows
  the nesting of its blocks. The rules look at one layer at a
  time: there is no list of layers that they append to.

  Key definitions include:
    * `Branch`
    * `Branch.layers`
    * `Layer.Performs`
    * `Body.Derives`
    * `Trunk`
    * `Program.Derives`
-/

namespace MapStyle

------------------------------------------------------------
-- Branches
------------------------------------------------------------

/-
  An `on` block that has been run: how it began, which
  uncascaded conditions the filter of its parent had taken
  over from the blocks around it, what was derived inside of
  it, and the finished child.
-/
inductive Branch
  | mk
    (refinement : Refinement)
    (carried : List Expression)
    (inner : List Branch)
    (child : Layer)

namespace Branch

/-
  The sibling of a finished child for the cascade with an
  index: the properties of the child under the name of the
  sibling, overlaid by the overrides of the cascade.
-/
def sibling
    (condition : Option Expression)
    (child : Layer)
    (index : Nat)
    (cascade : Cascade) : Layer :=
  let name := Value.text (Refinement.siblingId child index)
  { Layer.ofProperties
      ((child.properties.insert "id" name).overlay
        cascade.overrides.entries) with
    filter :=
      Expression.andOptional condition (some cascade.condition)
    settled := child.settled }

/- One sibling for each cascade of the parent, in order. -/
def siblings
    (refinement : Refinement)
    (child : Layer) : List Layer :=
  refinement.parent.cascades.mapIdx
    (sibling refinement.condition child)

mutual

/-
  The layers of a branch: everything inside of it, then the
  child, then its siblings.
-/
def layers : Branch → List Layer
  | .mk refinement _ inner child =>
      layersOfAll inner ++ child :: siblings refinement child

/- The layers of several branches, in order. -/
def layersOfAll : List Branch → List Layer
  | [] => []
  | branch :: rest => layers branch ++ layersOfAll rest

end

mutual

/- A branch with all branches inside of it, at any depth. -/
def nested : Branch → List Branch
  | .mk refinement carried inner child =>
      nestedInAll inner ++ [.mk refinement carried inner child]

/- Several branches with all branches inside of them. -/
def nestedInAll : List Branch → List Branch
  | [] => []
  | branch :: rest => nested branch ++ nestedInAll rest

end

theorem layersOfAll_append
    (first second : List Branch) :
    layersOfAll (first ++ second) =
      layersOfAll first ++ layersOfAll second := by
  induction first with
  | nil => rfl
  | cons branch rest ih =>
      rw [List.cons_append, layersOfAll, ih, layersOfAll,
        List.append_assoc]

theorem nestedInAll_append
    (first second : List Branch) :
    nestedInAll (first ++ second) =
      nestedInAll first ++ nestedInAll second := by
  induction first with
  | nil => rfl
  | cons branch rest ih =>
      rw [List.cons_append, nestedInAll, ih, nestedInAll,
        List.append_assoc]

end Branch

------------------------------------------------------------
-- Statements without a block of their own
------------------------------------------------------------

/- The names of statements that are no calls. -/
def Statement.keywords : List String :=
  ["on", "cascade", "uncascaded", "filter", "id", "suppress"]

/- No property has the name of such a statement. -/
theorem Statement.not_mem_keywords_of_property
    {name : String}
    {cls : PropertyClass}
    (h : Meaning.ofName name = .property cls) :
    name ∉ Statement.keywords := by
  intro hKeyword
  have hAll :
      ∀ keyword ∈ Statement.keywords,
        Meaning.ofName keyword = .field := by
    decide +kernel
  rw [hAll name hKeyword] at h
  cases h

namespace Layer

/- The values of arguments in the body of a layer. -/
def Evaluates
    (layer : Layer)
    (args : List Argument)
    (values : List Value) : Prop :=
  (Scope.evaluateArguments ⟨.empty, some layer⟩ args).outcome =
    .ok values

/-
  What a statement does to the layer where no extensions are
  registered. Calls of functions and reads of fields have a
  value that nothing uses.
-/
inductive Performs :
    String → List Value → Layer → Layer → Prop
  | uncascaded (args : List Value) (layer : Layer) :
      Performs "uncascaded" args layer
        { layer with uncascaded := Expression.condition? args }
  | filter (args : List Value) (layer : Layer) :
      Performs "filter" args layer
        { layer with filter := Expression.condition? args }
  | rename
    {args : List Value}
    {text : String}
    (layer : Layer)
    (hText : Arguments.text args 0 "id" = .ok text) :
      Performs "id" args layer (layer.put "id" (.text text))
  | suppress (args : List Value) (layer : Layer) :
      Performs "suppress" args layer
        { layer with written := false }
  | assign
    {name : String}
    {cls : PropertyClass}
    {args : List Value}
    {layer next : Layer}
    (hName : Meaning.ofName name = .property cls)
    (hSet :
      layer.set name (Build.assignedValue args) = .ok next) :
      Performs name args layer next
  | value
    {name : String}
    (args : List Value)
    (layer : Layer)
    (hKeyword : name ∉ Statement.keywords)
    (hName : ∀ cls, Meaning.ofName name ≠ .property cls) :
      Performs name args layer layer

end Layer

------------------------------------------------------------
-- Bodies
------------------------------------------------------------

/-
  What the filter of a layer carries after a statement: the
  filter that a statement sets is taken over from nowhere.
-/
def Statement.carriedAfter
    (name : String)
    (carried : List Expression) : List Expression :=
  if name = "filter" then [] else carried

/-
  Statements lead from a layer to another one and derive
  branches on the way. A cascade block works on the layer
  itself, an `on` block on the child. Beside each layer stand
  the uncascaded conditions that its filter carries.
-/
inductive Body.Derives
    (sources : Sources) :
    List Statement → List Expression → Layer →
      List Expression → Layer → List Branch → Prop
  | nil (carried : List Expression) (layer : Layer) :
      Body.Derives sources [] carried layer carried layer []
  | plain
    {name : String}
    {args : List Argument}
    {values : List Value}
    {rest : List Statement}
    {carried kept : List Expression}
    {layer next last : Layer}
    {branches : List Branch}
    (hArgs : layer.Evaluates args values)
    (hStep : Layer.Performs name values layer next)
    (hRest :
      Body.Derives sources rest
        (Statement.carriedAfter name carried) next kept last
        branches) :
      Body.Derives sources (.mk name args none :: rest)
        carried layer kept last branches
  | refine
    {args : List Argument}
    {values : List Value}
    {block : Option (List Statement)}
    {rest : List Statement}
    {carried inside kept : List Expression}
    {layer child last : Layer}
    {inner branches : List Branch}
    (hArgs : layer.Evaluates args values)
    (hBody :
      Body.Derives sources (block.getD [])
        (carried ++ layer.uncascaded.toList)
        (layer.refine values sources).child inside child inner)
    (hRest :
      Body.Derives sources rest carried
        (layer.refine values sources).parent kept last
        branches) :
      Body.Derives sources (.mk "on" args block :: rest)
        carried layer kept last
        (.mk (layer.refine values sources) carried inner child
          :: branches)
  | cascade
    {args : List Argument}
    {values : List Value}
    {block : Option (List Statement)}
    {rest : List Statement}
    {carried inside kept : List Expression}
    {layer reached last : Layer}
    {inner branches : List Branch}
    (hArgs : layer.Evaluates args values)
    (hBody :
      Body.Derives sources (block.getD []) carried
        { layer with active := Expression.condition? values }
        inside reached inner)
    (hRest :
      Body.Derives sources rest inside
        { reached with active := none } kept last branches) :
      Body.Derives sources (.mk "cascade" args block :: rest)
        carried layer kept last (inner ++ branches)

------------------------------------------------------------
-- Programs
------------------------------------------------------------

/- A finished layer of a program, with what its body derives. -/
structure Trunk where
  layer : Layer
  branches : List Branch

namespace Trunk

/- The layer goes before everything that its body derives. -/
def layers (trunk : Trunk) : List Layer :=
  trunk.layer :: Branch.layersOfAll trunk.branches

/- The layers of several trunks, in order. -/
def layersOfAll (trunks : List Trunk) : List Layer :=
  trunks.flatMap layers

/- The branches of several trunks, at any depth. -/
def nestedInAll (trunks : List Trunk) : List Branch :=
  trunks.flatMap fun trunk => Branch.nestedInAll trunk.branches

end Trunk

namespace Program

/- The values of arguments outside of every layer. -/
def Evaluates
    (args : List Argument)
    (values : List Value) : Prop :=
  (Scope.evaluateArguments ⟨.empty, none⟩ args).outcome =
    .ok values

/-
  Statements outside of layers lead from sources to others and
  define layers on the way. Included texts are run in place,
  nested at most so deep as a bound says.
-/
inductive Derives
    (texts : Texts) :
    Nat → Program → Sources → Sources → List Trunk → Prop
  | nil (bound : Nat) (sources : Sources) :
      Derives texts bound [] sources sources []
  | source
    {bound : Nat}
    {args : List Argument}
    {values : List Value}
    {name : String}
    {options : List (String × Value)}
    {rest : Program}
    {sources last : Sources}
    {trunks : List Trunk}
    (hArgs : Evaluates args values)
    (hOptions :
      Arguments.nameAndOptions values "source" =
        .ok (name, options))
    (hRest :
      Derives texts bound rest
        (sources.insert name (Bag.ofList options)) last
        trunks) :
      Derives texts bound (.mk "source" args none :: rest)
        sources last trunks
  | layer
    {bound : Nat}
    {args : List Argument}
    {values : List Value}
    {block : Option (List Statement)}
    {id : String}
    {options : List (String × Value)}
    {rest : Program}
    {sources last : Sources}
    {kept : List Expression}
    {finished : Layer}
    {branches : List Branch}
    {trunks : List Trunk}
    (hArgs : Evaluates args values)
    (hOptions :
      Arguments.nameAndOptions values "layer" =
        .ok (id, options))
    (hBody :
      Body.Derives sources (block.getD []) []
        (Layer.create id options sources) kept finished
        branches)
    (hRest : Derives texts bound rest sources last trunks) :
      Derives texts bound (.mk "layer" args block :: rest)
        sources last (⟨finished, branches⟩ :: trunks)
  | splice
    {bound : Nat}
    {args : List Argument}
    {values : List Value}
    {file text : String}
    {included rest : Program}
    {sources middle last : Sources}
    {inner trunks : List Trunk}
    (hArgs : Evaluates args values)
    (hFile : Arguments.text values 0 "include" = .ok file)
    (hText : texts file = .ok text)
    (hRead : Program.read text = .ok included)
    (hIncluded :
      Derives texts bound included sources middle inner)
    (hRest :
      Derives texts (bound + 1) rest middle last trunks) :
      Derives texts (bound + 1)
        (.mk "include" args none :: rest) sources last
        (inner ++ trunks)
  | property
    {bound : Nat}
    {name : String}
    {args : List Argument}
    {values : List Value}
    {rest : Program}
    {sources last : Sources}
    {trunks : List Trunk}
    (hArgs : Evaluates args values)
    (hName : name ∉ ["source", "layer", "include"])
    (hRest : Derives texts bound rest sources last trunks) :
      Derives texts bound (.mk name args none :: rest)
        sources last trunks

end Program

------------------------------------------------------------
-- Sourced layers
------------------------------------------------------------

variable {sources : Sources}

/- Statements that perform on the layer take no block. -/
theorem Layer.Performs.ne_block
    {name : String}
    {args : List Value}
    {layer next : Layer}
    (h : Layer.Performs name args layer next) :
    name ≠ "on" ∧ name ≠ "cascade" := by
  cases h with
  | uncascaded => decide
  | filter => decide
  | rename => decide
  | suppress => decide
  | assign hName _ =>
      have hKeyword :=
        Statement.not_mem_keywords_of_property hName
      constructor
      · rintro rfl
        exact hKeyword (by decide)
      · rintro rfl
        exact hKeyword (by decide)
  | value _ _ hKeyword _ =>
      constructor
      · rintro rfl
        exact hKeyword (by decide)
      · rintro rfl
        exact hKeyword (by decide)

theorem Layer.Performs.sourced
    {name : String}
    {args : List Value}
    {layer next : Layer}
    (h : Layer.Performs name args layer next)
    (hLayer : layer.Sourced sources) :
    next.Sourced sources := by
  cases h with
  | uncascaded => exact hLayer.congr rfl rfl
  | filter => exact hLayer.congr rfl rfl
  | rename _ _ =>
      exact hLayer.put _ (by decide) (by decide) (by decide)
  | suppress => exact hLayer.congr rfl rfl
  | assign hName hSet =>
      exact hLayer.set (Meaning.isAssignable_of_property hName)
        hSet
  | value => exact hLayer

/- Statements keep the layer that they work on sourced. -/
theorem Body.Derives.sourced
    {statements : List Statement}
    {carried kept : List Expression}
    {layer last : Layer}
    {branches : List Branch}
    (h :
      Body.Derives sources statements carried layer kept last
        branches)
    (hLayer : layer.Sourced sources) :
    last.Sourced sources := by
  induction h with
  | nil _ _ => exact hLayer
  | plain _ hStep _ ih => exact ih (hStep.sourced hLayer)
  | refine _ _ _ _ ihRest =>
      exact ihRest (hLayer.refine_parent _)
  | cascade _ _ _ ihBody ihRest =>
      exact ihRest
        ((ihBody (hLayer.withActive _)).withActive none)

end MapStyle
