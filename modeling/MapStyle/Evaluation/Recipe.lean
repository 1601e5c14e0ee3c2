import MapStyle.Evaluation.Statement
import MapStyle.Program.Reader

/-
  This file defines the execution of recipes. Every step
  leaves an entry in a record, with the layer as it is after
  the step.

  Key definitions include:
    * `Template.fill`
    * `Answer`
    * `Entry`
    * `Step.run`
    * `Steps.run`
    * `Recipe.runner`
-/

namespace MapStyle

------------------------------------------------------------
-- Templates
------------------------------------------------------------

namespace Template

/- The value of a term outside of every layer. -/
def termValue (source : String) : Traced Failure Value :=
  match Term.read source with
  | .error e => Traced.fail (.parse e)
  | .ok written =>
      ((Scope.topLevel .empty).evaluate written).mapError .compile

mutual

/- The value of a template; a hole without a value is null. -/
def fill (holes : List Value) : Template → Traced Failure Value
  | .constant v => pure v
  | .list items => do
      let values ← fillAll holes items
      pure (.list values)
  | .map entries => do
      let values ← fillEntries holes entries
      pure (.map (Bag.ofList values).entries)
  | .pass operand => do
      let v ← fill holes operand
      pure (.expr (.pass v))
  | .node operator operands => do
      let values ← fillAll holes operands
      pure (.expr (.node operator values))
  | .term source => termValue source
  | .hole index => pure (holes[index]?.getD .null)

/- The values of templates, left to right. -/
def fillAll
    (holes : List Value) :
    List Template → Traced Failure (List Value)
  | [] => pure []
  | t :: rest => do
      let v ← fill holes t
      let vs ← fillAll holes rest
      pure (v :: vs)

/- The values of entries, left to right. -/
def fillEntries
    (holes : List Value) :
    List (String × Template) →
      Traced Failure (List (String × Value))
  | [] => pure []
  | (name, t) :: rest => do
      let v ← fill holes t
      let vs ← fillEntries holes rest
      pure ((name, v) :: vs)

end

end Template

------------------------------------------------------------
-- Records
------------------------------------------------------------

/- What a step answers. -/
inductive Answer
  | done
  | value (value : Value)
  | optional (value : Option Value)

/-
  The entry of a step: its outcome, the layer after it, and
  the entries of its body if it has one.
-/
inductive Entry
  | mk
    (outcome : Except Failure Answer)
    (layer : Layer)
    (body : Option (List Entry))

/- A failure in a body, with the entries up to it. -/
structure Interrupted where
  failure : Failure
  entries : List Entry

------------------------------------------------------------
-- Steps
------------------------------------------------------------

/- What steps need to know: the call that they belong to. -/
structure RecipeScope where
  arguments : List Value
  runner : Runner

namespace Build

/- Fill templates with the arguments of the call. -/
def filled
    (scope : RecipeScope)
    (args : List Template) : Build Failure (List Value) :=
  traced (Template.fillAll scope.arguments args)

/- Fill one template with the arguments of the call. -/
def filledOne
    (scope : RecipeScope)
    (t : Template) : Build Failure Value :=
  traced (Template.fill scope.arguments t)

/-
  Assign a list of the current value of a property, or null,
  and a new value.
-/
def update
    (name : String)
    (value : Value) : Build Failure Unit :=
  fun w =>
    let current := (w.layer.get? name).getD .null
    assign name (.list [current, value]) w

/- Run a text as the body of a layer. -/
def runText
    (runner : Runner)
    (source : String) : Build Failure Unit :=
  match Program.read source with
  | .error e => throw (.parse e)
  | .ok program => Body.runStatements runner program

/- The value of a text as a term in the scope of the layer. -/
def evaluateText (source : String) : Build Failure Value :=
  match Term.read source with
  | .error e => throw (.parse e)
  | .ok term => evaluated fun scope => scope.evaluate term

/- Run an action and answer that it is done. -/
def done (action : Build Failure Unit) : Build Failure Answer := do
  action
  pure .done

/- The action of a step that has no body. -/
def runPlain
    (scope : RecipeScope) : Action → Build Failure Answer
  | .set name value => do
      let v ← filledOne scope value
      done (assign name v)
  | .update name value => do
      let v ← filledOne scope value
      done (update name v)
  | .rename name => done (rename name)
  | .suppress => done suppress
  | .filter args => do
      let values ← filled scope args
      done (filter values)
  | .uncascaded args => do
      let values ← filled scope args
      done (uncascaded values)
  | .call name args => do
      let values ← filled scope args
      let v ← call scope.runner name values
      pure (.optional v)
  | .valueOf name args => do
      let values ← filled scope args
      let v ←
        evaluated fun s => Scope.valueOf s.extensions name values
      pure (.value v)
  | .currentValue name => do
      let w ← get
      pure (.optional (w.layer.get? name))
  | .literal args => do
      let values ← filled scope args
      pure (.value (.expr (Expression.literal values)))
  | .any args => do
      let values ← filled scope args
      pure (.value (.expr (Expression.any values)))
  | .all args => do
      let values ← filled scope args
      pure (.value (.expr (Expression.all values)))
  | .statements source => done (runText scope.runner source)
  | .evaluate source => do
      let v ← evaluateText source
      pure (.value v)
  | .refine _ _ => pure .done
  | .cascade _ _ => pure .done

end Build

namespace Entry

/- The entry of an action without a body. -/
def ofPlain
    (action : Build Failure Answer)
    (w : Workbench) : Entry × Workbench :=
  match action w with
  | .ok a v => (.mk (.ok a) v.layer none, v)
  | .error e v => (.mk (.error e) v.layer none, v)

/-
  The entry of an action with a body. If its arguments fail,
  the body is not reached and has no entries.
-/
def ofBody
    (args : Build Failure (List Value))
    (action : List Value → Build Interrupted (List Entry))
    (w : Workbench) : Entry × Workbench :=
  match args w with
  | .error e v => (.mk (.error e) v.layer (some []), v)
  | .ok values v =>
      match action values v with
      | .ok entries u =>
          (.mk (.ok .done) u.layer (some entries), u)
      | .error e u =>
          (.mk (.error e.failure) u.layer (some e.entries), u)

/- The failure of a step, if it failed. -/
def failure? : Entry → Option Failure
  | .mk (.error e) _ _ => some e
  | .mk (.ok _) _ _ => none

end Entry

mutual

/- Run a step; its failure is part of its entry. -/
def Step.run
    (scope : RecipeScope) : Step → Workbench → Entry × Workbench
  | .mk (.refine args body) _ =>
      Entry.ofBody (Build.filled scope args) fun values =>
        Build.refine values (Steps.run scope body)
  | .mk (.cascade args body) _ =>
      Entry.ofBody (Build.filled scope args) fun values =>
        Build.cascade values (Steps.run scope body)
  | .mk action _ => Entry.ofPlain (Build.runPlain scope action)

/-
  Run steps in order, up to the first whose failure is not
  caught.
-/
def Steps.run
    (scope : RecipeScope) :
    List Step → Build Interrupted (List Entry)
  | [] => fun w => .ok [] w
  | .mk action caught :: rest => fun w =>
      let (entry, v) := Step.run scope (.mk action caught) w
      match entry.failure?, caught with
      | some e, false => .error ⟨e, [entry]⟩ v
      | _, _ =>
          match Steps.run scope rest v with
          | .ok entries u => .ok (entry :: entries) u
          | .error i u => .error ⟨i.failure, entry :: i.entries⟩ u

end

------------------------------------------------------------
-- Extensions
------------------------------------------------------------

namespace Recipe

/- Run a recipe with arguments, without its record. -/
def run
    (recipe : Recipe)
    (scope : RecipeScope) : Build Failure Unit :=
  fun w =>
    match Steps.run scope recipe.steps w with
    | .ok _ v => .ok () v
    | .error i v => .error i.failure v

/- Extensions that call each other deeper than this are refused. -/
def maxNesting : Nat := 1000000

/-
  Run extensions that call each other at most so deep as a
  bound says.
-/
def runnerWithin : Nat → Runner
  | 0 => fun name _ _ =>
      Build.check
        (Arguments.fail (.extensionTooDeep name maxNesting))
  | bound + 1 => fun _ recipe args =>
      recipe.run ⟨args, runnerWithin bound⟩

/- Run extensions. -/
def runner : Runner :=
  runnerWithin maxNesting

end Recipe

end MapStyle
