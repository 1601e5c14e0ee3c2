import MapStyle.Proofs.BodyRun
import MapStyle.Proofs.Frame
import MapStyle.Proofs.Truth

/-
  The truth of the filters that a refinement makes: for the
  child, the condition of the refinement, the filter of the
  parent and its uncascaded condition have to hold; for a
  sibling the condition of its cascade takes the place of the
  last one.

  Main statements:
    * `Build.Filterless.frames`
    * `Build.refine_filters`
-/

namespace MapStyle

open Expression

------------------------------------------------------------
-- The filters of a refinement
------------------------------------------------------------

namespace Layer

variable (truth : Value → Bool)
variable (layer : Layer)
variable (args : List Value)
variable (sources : Sources)

/- The condition that the child shares with its siblings. -/
theorem holds_refine_condition :
    holdsOptional truth (layer.refine args sources).condition =
      (holdsArguments truth (splitZoom args).2 &&
        holdsOptional truth layer.filter) := by
  unfold refine
  dsimp only
  rw [holds_andOptional, holds_condition?]

/- The child alone has the uncascaded condition in addition. -/
theorem refine_child_filter :
    (layer.refine args sources).child.filter =
      andOptional (layer.refine args sources).condition
        layer.uncascaded := by
  unfold refine
  rfl

end Layer

namespace Refinement

/- A sibling has the condition of its cascade instead. -/
theorem sibling_filter
    (r : Refinement)
    (child : Layer)
    (sources : Sources)
    (index : Nat)
    (cascade : Cascade) :
    (r.sibling child sources index cascade).filter =
      andOptional r.condition (some cascade.condition) := rfl

theorem length_siblings
    (r : Refinement)
    (child : Layer)
    (sources : Sources) :
    (r.siblings child sources).length =
      r.parent.cascades.length :=
  List.length_mapIdx

theorem getElem?_siblings
    (r : Refinement)
    (child : Layer)
    (sources : Sources)
    (index : Nat) :
    (r.siblings child sources)[index]? =
      r.parent.cascades[index]?.map
        (r.sibling child sources index) :=
  List.getElem?_mapIdx

end Refinement

------------------------------------------------------------
-- Bodies
------------------------------------------------------------

namespace Build

/-
  The bodies of an `on` block that do not set the filter of
  the child: blocks of a text and steps of a recipe, with
  extensions nested at most so deep as a bound says.
-/
inductive Filterless
    (allowed : String → Prop) :
    {ε α : Type} → Build ε α → Prop
  | block
    (bound : Nat)
    {block : Option (List Statement)}
    (hBlock :
      ∀ statement ∈ block.getD [],
        statement.Filterless allowed) :
      Filterless allowed
        (Body.runBlock (Recipe.runnerWithin bound) block)
  | steps
    (bound : Nat)
    (args : List Value)
    {steps : List Step}
    (hSteps : ∀ step ∈ steps, step.Filterless allowed) :
      Filterless allowed
        (Steps.run ⟨args, Recipe.runnerWithin bound⟩ steps)

variable {ε α : Type}
variable {allowed : String → Prop}
variable {body : Build ε α}

/-
  Such bodies keep the filter, since no part of them sets
  it.
-/
theorem Filterless.frames
    (h : Filterless allowed body) :
    Frames allowed True body := by
  cases h with
  | block bound hBlock =>
      have hRun :
          FramesExtensions allowed
            (Recipe.runnerWithin bound) :=
        Recipe.frames_runnerWithin bound
      exact
        (Body.frames_runBlock hRun _).mono fun _ => hBlock
  | steps bound args hSteps =>
      let scope : RecipeScope :=
        ⟨args, Recipe.runnerWithin bound⟩
      have hRun : FramesExtensions allowed scope.runner :=
        Recipe.frames_runnerWithin bound
      exact
        (Steps.frames_run hRun _).mono fun _ => hSteps

/- The child that a filterless body leaves keeps its filter. -/
theorem Filterless.filter_eq
    {w v : Workbench}
    {a : α}
    (h : Filterless allowed body)
    (hExtensions : w.sheet.Filterless allowed)
    (hRun : body w = .ok a v) :
    v.layer.filter = w.layer.filter := by
  have hReached := h.frames w
  unfold after at hReached
  rw [hRun] at hReached
  exact hReached.filter trivial hExtensions

/-
  The layers that a refinement adds at the end, and the truth
  of their filters.
-/
theorem refine_filters
    {args : List Value}
    {w u : Workbench}
    {a : α}
    (hBody : Filterless allowed body)
    (hExtensions : w.sheet.Filterless allowed)
    (hRefine : refine args body w = .ok a u) :
    ∃ v siblings,
      body (childBench args w) = .ok a v ∧
        u.sheet.layers =
          v.sheet.layers ++ v.layer :: siblings ∧
          siblings.length = w.layer.cascades.length ∧
            ∀ truth,
              holdsOptional truth v.layer.filter =
                (holdsArguments truth
                    (Layer.splitZoom args).2 &&
                  holdsOptional truth w.layer.filter &&
                    holdsOptional truth w.layer.uncascaded) ∧
                ∀ (index : Nat) cascade sibling,
                  w.layer.cascades[index]? = some cascade →
                    siblings[index]? = some sibling →
                      holdsOptional truth sibling.filter =
                        (holdsArguments truth
                            (Layer.splitZoom args).2 &&
                          holdsOptional truth w.layer.filter &&
                            cascade.condition.holds truth) := by
  rcases refine_eq_ok.mp hRefine with ⟨v, hRun, rfl⟩
  let r := w.layer.refine args w.sheet.sources
  refine
    ⟨v, r.siblings v.layer v.sheet.sources, hRun, rfl,
      r.length_siblings _ _, ?_⟩
  intro truth
  have hCondition :=
    w.layer.holds_refine_condition truth args w.sheet.sources
  constructor
  · have hChild :
        v.layer.filter =
          andOptional r.condition w.layer.uncascaded := by
      rw [hBody.filter_eq (w := childBench args w)
        hExtensions hRun]
      exact w.layer.refine_child_filter args w.sheet.sources
    rw [hChild, holds_andOptional, hCondition]
  · intro index cascade sibling hCascade hSibling
    rw [r.getElem?_siblings] at hSibling
    have hParent :
        r.parent.cascades[index]? = some cascade := hCascade
    rw [hParent] at hSibling
    rw [← Option.some.inj hSibling, r.sibling_filter,
      holds_andOptional, hCondition]
    rfl

/-
  A layer that has a filter, an uncascaded condition and a
  cascade.
-/
def narrowed : Workbench where
  layer :=
    { Layer.create "a" [] .empty with
      filter :=
        some (.all [.expr (.get "p"), .expr (.get "q")])
      uncascaded := some (.get "r")
      cascades := [⟨.get "k", .empty⟩] }
  sheet := .empty
  log := #[]

/- A block that sets a single property. -/
def widened : Option (List Statement) :=
  some [.mk "line_width" [.positional (.literal (.int 2))] none]

theorem filterless_widened :
    Filterless (fun _ => True)
      (Body.runBlock (Recipe.runnerWithin 0) widened) := by
  refine .block 0 ?_
  intro statement hStatement
  rcases List.mem_singleton.mp hStatement with rfl
  exact .plain _ _ (by decide) (by decide) (Or.inr trivial)

theorem refine_filters_narrowed :
    ∃ u layers child sibling,
      refine [.int 5, .expr (.get "c")]
          (Body.runBlock (Recipe.runnerWithin 0) widened)
          narrowed =
        .ok () u ∧
        u.sheet.layers = layers ++ [child, sibling] ∧
          ∀ truth : Value → Bool,
            holdsOptional truth child.filter =
              (truth (.expr (.get "c")) &&
                (truth (.expr (.get "p")) &&
                  truth (.expr (.get "q"))) &&
                truth (.expr (.get "r"))) ∧
              holdsOptional truth sibling.filter =
                (truth (.expr (.get "c")) &&
                  (truth (.expr (.get "p")) &&
                    truth (.expr (.get "q"))) &&
                  truth (.expr (.get "k"))) := by
  have hSucceeds :
      Action.succeeds
          (refine [.int 5, .expr (.get "c")]
            (Body.runBlock (Recipe.runnerWithin 0) widened))
          narrowed =
        true := by
    decide +kernel
  rcases Action.exists_of_succeeds hSucceeds with
    ⟨_, u, hRefine⟩
  have hExtensions :
      narrowed.sheet.Filterless fun _ => True := by
    intro name recipe _ hFound
    cases hFound
  rcases
    refine_filters filterless_widened hExtensions hRefine with
    ⟨v, siblings, _, hLayers, hLength, hTruth⟩
  rcases List.length_eq_one_iff.mp hLength with
    ⟨sibling, rfl⟩
  refine
    ⟨u, v.sheet.layers, v.layer, sibling, hRefine, hLayers,
      ?_⟩
  intro truth
  rcases hTruth truth with ⟨hChild, hSiblings⟩
  have hSibling := hSiblings 0 _ sibling rfl rfl
  have hNarrowed :
      holdsOptional truth narrowed.layer.filter =
        (truth (.expr (.get "p")) &&
          truth (.expr (.get "q"))) := by
    simp [narrowed, holdsOptional, holds, all, holdsAll,
      holdsOperand]
  rw [hNarrowed] at hChild hSibling
  constructor
  · rw [hChild]
    simp [narrowed, holdsOptional, holdsArguments,
      Layer.splitZoom, Layer.isZoomSelector,
      Value.toExpression]
  · rw [hSibling]
    simp [holdsArguments, Layer.splitZoom,
      Layer.isZoomSelector, Value.toExpression]

end Build

end MapStyle
