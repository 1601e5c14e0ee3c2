import MapStyle.Proofs.Deeds
import MapStyle.Proofs.PropertyOrder
import MapStyle.Proofs.RefinedFilter

/-
  The filters that are written into a document, and what a
  derived layer shows beside its parent. The written filter of
  a layer is its own one, or else the one that its options
  give; refinements narrow the first, and hand on the second
  as it is.

  Key definitions include:
    * `Json.holds`
    * `Json.Implies`
    * `Layer.optionFilter?`
    * `Layer.emittedFilter?`

  Main statements:
    * `Expression.holds_encode`
    * `Layer.get?_filter_of_write?`
    * `Layer.optionFilter?_child`
    * `Build.refine_emittedFilters`
-/

namespace MapStyle

------------------------------------------------------------
-- Truth of written conditions
------------------------------------------------------------

namespace Json

mutual

/-
  Whether a written condition holds, by the truth of all that
  is no `all` and no `any`.
-/
def holds (truth : Json → Bool) : Json → Bool
  | .array (.text operator :: operands) =>
      if operator = "all" then
        holdsAll truth operands
      else if operator = "any" then
        holdsAny truth operands
      else
        truth (.array (.text operator :: operands))
  | json => truth json

/- Whether all written conditions hold. -/
def holdsAll (truth : Json → Bool) : List Json → Bool
  | [] => true
  | json :: rest => holds truth json && holdsAll truth rest

/- Whether some written condition holds. -/
def holdsAny (truth : Json → Bool) : List Json → Bool
  | [] => false
  | json :: rest => holds truth json || holdsAny truth rest

end

/- A filter that is absent holds. -/
def holdsOptional
    (truth : Json → Bool) : Option Json → Bool
  | none => true
  | some json => json.holds truth

/-
  A written filter implies another one: where it holds, the
  other one does, whatever the truth of their atoms.
-/
def Implies (filter other : Option Json) : Prop :=
  ∀ truth,
    holdsOptional truth filter = true →
      holdsOptional truth other = true

/-
  A filter that may be replaced: what is written then implies
  it exactly if the replacement does, should there be one.
-/
theorem implies_or_iff
    {value? : Option Value}
    {filter : Option Json} :
    Implies ((value?.map Value.lower).or filter) filter ↔
      ∀ value,
        value? = some value →
          Implies (some value.lower) filter := by
  cases value? with
  | none =>
      constructor
      · intro _ value hNone
        cases hNone
      · intro _ truth hTruth
        exact hTruth
  | some value =>
      constructor
      · intro hImplies other hOther
        cases hOther
        exact hImplies
      · intro hEach
        exact hEach value rfl

end Json

namespace Expression

/- The truth of a value, by that of its written form. -/
def writtenTruth
    (truth : Json → Bool)
    (value : Value) : Bool :=
  (value.operandForm value.lower).holds truth

mutual

/- A condition is written as one that holds where it does. -/
theorem holds_encode (truth : Json → Bool) :
    (e : Expression) →
      e.encode.holds truth = e.holds (writtenTruth truth)
  | .pass _ => rfl
  | .node operator operands => by
      rw [encode, Json.holds, holds]
      by_cases hAll : operator = "all"
      · rw [if_pos hAll, if_pos hAll]
        exact holdsAll_lowerOperands truth operands
      · rw [if_neg hAll, if_neg hAll]
        by_cases hAny : operator = "any"
        · rw [if_pos hAny, if_pos hAny]
          exact holdsAny_lowerOperands truth operands
        · rw [if_neg hAny, if_neg hAny]
          unfold writtenTruth Value.operandForm
          dsimp only
          rw [Value.lower, encode, Json.holds, if_neg hAll,
            if_neg hAny]

theorem holds_operandForm (truth : Json → Bool) :
    (v : Value) →
      (v.operandForm v.lower).holds truth =
        holdsOperand (writtenTruth truth) v
  | .expr e => by
      rw [holdsOperand, Value.lower]
      exact holds_encode truth e
  | .null => rfl
  | .bool _ => rfl
  | .int _ => rfl
  | .float _ => rfl
  | .text _ => rfl
  | .list _ => rfl
  | .map _ => rfl
  | .range _ => rfl
  | .color _ => rfl

theorem holdsAll_lowerOperands (truth : Json → Bool) :
    (operands : List Value) →
      Json.holdsAll truth (Value.lowerOperands operands) =
        holdsAll (writtenTruth truth) operands
  | [] => by
      rw [Value.lowerOperands, Json.holdsAll, holdsAll]
  | v :: rest => by
      rw [Value.lowerOperands, Json.holdsAll, holdsAll,
        holds_operandForm truth v,
        holdsAll_lowerOperands truth rest]

theorem holdsAny_lowerOperands (truth : Json → Bool) :
    (operands : List Value) →
      Json.holdsAny truth (Value.lowerOperands operands) =
        holdsAny (writtenTruth truth) operands
  | [] => by
      rw [Value.lowerOperands, Json.holdsAny, holdsAny]
  | v :: rest => by
      rw [Value.lowerOperands, Json.holdsAny, holdsAny,
        holds_operandForm truth v,
        holdsAny_lowerOperands truth rest]

end

end Expression

------------------------------------------------------------
-- Written filters
------------------------------------------------------------

namespace Layer

/- The filter that the options of a layer give. -/
def optionFilter? (layer : Layer) : Option Json :=
  (layer.properties.get? "filter").map Value.lower

/-
  The filter with which a layer is written: its own one, else
  the one that its options give.
-/
def emittedFilter? (layer : Layer) : Option Json :=
  (layer.filter.map Expression.encode).or layer.optionFilter?

theorem not_mem_partMember
    {name other : String}
    (part : List (String × Json))
    (h : other ≠ name) :
    other ∉ (partMember name part).map Prod.fst := by
  intro hMember
  have hName := (partMember_names name part).subset hMember
  exact h (List.mem_singleton.mp hName)

/- The filter of a written layer. -/
theorem get?_filter_of_write?
    {layer : Layer}
    {out : Bag Json}
    (h : layer.write? = .ok (some out)) :
    out.get? "filter" = layer.emittedFilter? := by
  rcases exists_gathered_of_write? h with ⟨parts, hParts, rfl⟩
  have hPlain : IsPlainField "filter" := by decide +kernel
  have hFields :
      Entries.find? "filter" parts.fields.entries =
        layer.optionFilter? :=
    hParts.get?_field hPlain
  rw [Parts.members_eq_overlay, Bag.overlay_append,
    Bag.overlay_append, Bag.overlay_append, Bag.overlay_append,
    Bag.overlay_append, Bag.overlay_append,
    get?_overlay_optionalMember_of_ne _ _ (by decide),
    get?_overlay_optionalMember_of_ne _ _ (by decide),
    get?_overlay_optionalMember_self,
    get?_overlay_optionalMember_of_ne _ _ (by decide),
    Bag.get?_overlay _ parts.fields.keys_nodup,
    Bag.get?_overlay_of_not_mem _
      (not_mem_partMember _ (by decide)),
    Bag.get?_overlay_of_not_mem _
      (not_mem_partMember _ (by decide))]
  have hNone :
      (Entries.find? "filter" parts.fields.entries).or
          (Bag.empty.get? "filter") =
        layer.optionFilter? :=
    (Option.or_none).trans hFields
  rw [hNone]
  rfl

variable {layer : Layer}

theorem emittedFilter?_of_filter
    {e : Expression}
    (h : layer.filter = some e) :
    layer.emittedFilter? = some e.encode := by
  unfold emittedFilter?
  rw [h]
  rfl

theorem emittedFilter?_of_no_filter
    (h : layer.filter = none) :
    layer.emittedFilter? = layer.optionFilter? := by
  unfold emittedFilter?
  rw [h]
  rfl

/- A filter of its own decides where a layer is shown. -/
theorem holds_emittedFilter?
    (truth : Json → Bool)
    (h : layer.filter ≠ none) :
    Json.holdsOptional truth layer.emittedFilter? =
      Expression.holdsOptional (Expression.writtenTruth truth)
        layer.filter := by
  cases hFilter : layer.filter with
  | none => exact absurd hFilter h
  | some e =>
      rw [emittedFilter?_of_filter hFilter]
      exact e.holds_encode truth

end Layer

------------------------------------------------------------
-- Handed on options
------------------------------------------------------------

theorem Spelling.underscored_eq_filter_iff (name : String) :
    underscored name = "filter" ↔ name = "filter" := by
  constructor
  · exact eq_of_replace_eq (by decide)
  · rintro rfl
    decide

namespace Layer

/- A derived layer has the filter that the options give. -/
theorem get?_filter_derive
    (layer : Layer)
    (id : String)
    (sources : Sources) :
    (layer.derive id sources).properties.get? "filter" =
      layer.properties.get? "filter" := by
  have hCreate :
      (layer.derive id sources).properties.get? "filter" =
        Entries.find? "filter"
          (Entries.kept layer.properties.entries.reverse) :=
    (create_startsFrom id _ sources).get?_eq (by decide)
  rw [hCreate,
    Entries.find?_kept Spelling.underscored_eq_filter_iff]
  exact layer.properties.find?_reverse "filter"

/- A refinement hands on the filter that the options give. -/
theorem optionFilter?_child
    (layer : Layer)
    (args : List Value)
    (sources : Sources) :
    (layer.refine args sources).child.optionFilter? =
      layer.optionFilter? := by
  have hDerive :=
    layer.get?_filter_derive
      (layer.id ++ "__" ++ countText (layer.children + 1))
      sources
  unfold optionFilter? refine
  rcases splitZoom args with ⟨zoom, conditions⟩
  cases zoom with
  | none => exact congrArg (Option.map Value.lower) hDerive
  | some v =>
      apply congrArg (Option.map Value.lower)
      refine (Bag.get?_insert _ _ _ _).trans ?_
      rw [if_neg (by decide)]
      exact hDerive

end Layer

------------------------------------------------------------
-- Narrowed layers
------------------------------------------------------------

open Expression (andOptional condition? holdsArguments
  holdsOptional writtenTruth)

namespace Layer

/-
  A layer whose filter holds where that of another layer does
  and some condition in addition.
-/
def Narrows
    (layer derived : Layer)
    (condition : (Value → Bool) → Bool) : Prop :=
  ∀ truth,
    holdsOptional truth derived.filter =
      (condition truth && holdsOptional truth layer.filter)

/-
  A narrowed layer with a filter of its own is shown only
  where the other one is, unless its condition leads out of
  the filter that the options of the other one give.
-/
theorem Narrows.implies_iff
    {layer derived : Layer}
    {condition : (Value → Bool) → Bool}
    (h : layer.Narrows derived condition)
    (hDerived : derived.filter ≠ none) :
    Json.Implies derived.emittedFilter? layer.emittedFilter? ↔
      layer.filter ≠ none ∨
        ∀ truth,
          condition (writtenTruth truth) = true →
            Json.holdsOptional truth layer.optionFilter? =
              true := by
  have hHolds :
      ∀ truth,
        Json.holdsOptional truth derived.emittedFilter? =
          (condition (writtenTruth truth) &&
            holdsOptional (writtenTruth truth)
              layer.filter) := by
    intro truth
    rw [holds_emittedFilter? truth hDerived, h]
  by_cases hFilter : layer.filter = none
  · rw [emittedFilter?_of_no_filter hFilter]
    unfold Json.Implies
    simp only [hHolds, hFilter, holdsOptional, Bool.and_true]
    constructor
    · exact Or.inr
    · rintro (hOwn | hEach)
      · exact absurd rfl hOwn
      · exact hEach
  · constructor
    · intro _
      exact Or.inl hFilter
    · intro _ truth hTruth
      rw [hHolds, Bool.and_eq_true] at hTruth
      rw [holds_emittedFilter? truth hFilter]
      exact hTruth.2

variable (layer : Layer)
variable (args : List Value)
variable (sources : Sources)

/- The child is narrowed while it keeps its filter. -/
theorem narrows_child
    {child : Layer}
    (h :
      child.filter =
        (layer.refine args sources).child.filter) :
    layer.Narrows child fun truth =>
      holdsArguments truth (splitZoom args).2 &&
        holdsOptional truth layer.uncascaded := by
  intro truth
  rw [h, refine_child_filter, Expression.holds_andOptional,
    holds_refine_condition, Bool.and_right_comm]

/-
  A child has no filter exactly if its parent has none and
  nothing narrows it.
-/
theorem refine_child_filter_eq_none_iff :
    (layer.refine args sources).child.filter = none ↔
      (splitZoom args).2 = [] ∧
        layer.filter = none ∧ layer.uncascaded = none := by
  have hCondition :
      (layer.refine args sources).condition =
        andOptional (condition? (splitZoom args).2)
          layer.filter := rfl
  rw [refine_child_filter, Expression.andOptional_eq_none_iff,
    hCondition, Expression.andOptional_eq_none_iff,
    Expression.condition?_eq_none_iff, and_assoc]

/- A sibling has the condition of its cascade instead. -/
theorem narrows_sibling
    (child : Layer)
    (others : Sources)
    (index : Nat)
    (cascade : Cascade) :
    layer.Narrows
      ((layer.refine args sources).sibling child others index
        cascade)
      fun truth =>
        holdsArguments truth (splitZoom args).2 &&
          cascade.condition.holds truth := by
  intro truth
  rw [Refinement.sibling_filter,
    Expression.holds_andOptional, holds_refine_condition,
    Bool.and_right_comm]
  rfl

theorem sibling_filter_ne_none
    (r : Refinement)
    (child : Layer)
    (index : Nat)
    (cascade : Cascade) :
    (r.sibling child sources index cascade).filter ≠ none := by
  intro hNone
  rw [Refinement.sibling_filter] at hNone
  cases (Expression.andOptional_eq_none_iff.mp hNone).2

end Layer

------------------------------------------------------------
-- Refinements
------------------------------------------------------------

namespace Build

variable {ε α : Type}
variable {allowed : String → Prop}
variable {body : Build ε α}

/- Bodies without filters are made of operations. -/
theorem Filterless.built
    (h : Filterless allowed body) : Built body := by
  cases h with
  | block bound _ =>
      exact
        closed_built.runBlock
          (closed_built.runnerWithin bound) _
  | steps bound args _ =>
      let scope : RecipeScope :=
        ⟨args, Recipe.runnerWithin bound⟩
      have hRun :
          Closed.Runs (fun _ _ action => Built action)
            scope.runner :=
        closed_built.runnerWithin bound
      exact closed_built.runSteps hRun _

/-
  The written filter of a child that nothing narrows: the one
  that its body assigns as a property, else the one with which
  its parent is written.
-/
theorem Does.emittedFilter?_child
    {args : List Value}
    {w v : Workbench}
    {a : α}
    {done : Deeds}
    (hDone : Does body (childBench args w) done)
    (hRun : body (childBench args w) = .ok a v)
    (hChild : v.layer.filter = none)
    (hParent : w.layer.filter = none) :
    v.layer.emittedFilter? =
      ((done.lastAssigned? "filter").map Value.lower).or
        w.layer.emittedFilter? := by
  have hFilter := hDone.get?_after "filter"
  rw [after_of_ok hRun] at hFilter
  have hHandedOn :
      (childBench args w).layer.optionFilter? =
        w.layer.optionFilter? :=
    w.layer.optionFilter?_child args w.sheet.sources
  rw [Layer.emittedFilter?_of_no_filter hChild,
    Layer.emittedFilter?_of_no_filter hParent, ← hHandedOn]
  unfold Layer.optionFilter?
  rw [hFilter]
  exact Option.map_or

/-
  What the written filters of a refinement mean beside that of
  the parent, as it is written when the refinement begins. A
  derived layer with a filter of its own is shown only where
  its parent is, exactly if the parent has a filter of its own
  or the filter that its options give follows from what the
  refinement adds. A child without one is written with the
  filter of its parent, unless its body assigns a property
  `filter`; it is then written with the last one assigned, and
  is shown only where its parent is exactly if that one
  implies the filter of the parent.
-/
theorem refine_emittedFilters
    {args : List Value}
    {w u : Workbench}
    {a : α}
    (hBody : Filterless allowed body)
    (hExtensions : w.sheet.Filterless allowed)
    (hRefine : refine args body w = .ok a u) :
    ∃ v siblings,
      body (childBench args w) = .ok a v ∧
        u.sheet.layers =
          v.sheet.layers ++ v.layer :: siblings ∧
        siblings.length = w.layer.cascades.length ∧
        (∃ done, Does body (childBench args w) done) ∧
        ∀ out,
          w.layer.write? = .ok (some out) →
            (∀ childOut,
              v.layer.write? = .ok (some childOut) →
                if
                  (Layer.splitZoom args).2 = [] ∧
                    w.layer.filter = none ∧
                      w.layer.uncascaded = none
                then
                  ∀ done,
                    Does body (childBench args w) done →
                      childOut.get? "filter" =
                          ((done.lastAssigned? "filter").map
                              Value.lower).or
                            (out.get? "filter") ∧
                        (Json.Implies (childOut.get? "filter")
                            (out.get? "filter") ↔
                          ∀ value,
                            done.lastAssigned? "filter" =
                                some value →
                              Json.Implies (some value.lower)
                                (out.get? "filter"))
                else
                  (Json.Implies (childOut.get? "filter")
                      (out.get? "filter") ↔
                    w.layer.filter ≠ none ∨
                      ∀ truth,
                        (holdsArguments (writtenTruth truth)
                              (Layer.splitZoom args).2 &&
                            holdsOptional (writtenTruth truth)
                              w.layer.uncascaded) =
                          true →
                          Json.holdsOptional truth
                              w.layer.optionFilter? =
                            true)) ∧
              ∀ (index : Nat) cascade sibling siblingOut,
                w.layer.cascades[index]? = some cascade →
                  siblings[index]? = some sibling →
                    sibling.write? = .ok (some siblingOut) →
                      (Json.Implies (siblingOut.get? "filter")
                          (out.get? "filter") ↔
                        w.layer.filter ≠ none ∨
                          ∀ truth,
                            (holdsArguments
                                  (writtenTruth truth)
                                  (Layer.splitZoom args).2 &&
                                cascade.condition.holds
                                  (writtenTruth truth)) =
                              true →
                              Json.holdsOptional truth
                                  w.layer.optionFilter? =
                                true) := by
  rcases refine_eq_ok.mp hRefine with ⟨v, hRun, rfl⟩
  let r := w.layer.refine args w.sheet.sources
  have hChild : v.layer.filter = r.child.filter :=
    hBody.filter_eq (w := childBench args w) hExtensions hRun
  refine
    ⟨v, r.siblings v.layer v.sheet.sources, hRun, rfl,
      r.length_siblings _ _, hBody.built.exists_does _, ?_⟩
  intro out hOut
  have hParentFilter := Layer.get?_filter_of_write? hOut
  constructor
  · intro childOut hChildOut
    rw [Layer.get?_filter_of_write? hChildOut, hParentFilter]
    have hNone :=
      w.layer.refine_child_filter_eq_none_iff args
        w.sheet.sources
    rw [← hChild] at hNone
    split
    · next hBare =>
        intro done hDone
        have hFilter :=
          hDone.emittedFilter?_child hRun (hNone.mpr hBare)
            hBare.2.1
        refine ⟨hFilter, ?_⟩
        rw [hFilter]
        exact Json.implies_or_iff
    · next hSome =>
        exact
          (w.layer.narrows_child args w.sheet.sources
            hChild).implies_iff
            fun hFilter => hSome (hNone.mp hFilter)
  · intro index cascade sibling siblingOut hCascade hSibling
      hSiblingOut
    have hParent : r.parent.cascades[index]? = some cascade :=
      hCascade
    rw [r.getElem?_siblings, hParent] at hSibling
    cases Option.some.inj hSibling
    rw [Layer.get?_filter_of_write? hSiblingOut, hParentFilter]
    exact
      (w.layer.narrows_sibling args w.sheet.sources v.layer
        v.sheet.sources index cascade).implies_iff
        (Layer.sibling_filter_ne_none _ _ _ _ _)

/- A layer of lines whose filter is among its options. -/
def optioned : Workbench where
  layer :=
    { Layer.create "a"
        [("filter", .expr (.get "x")), ("line_width", .int 1)]
        .empty with
      cascades := [⟨.get "k", .empty⟩] }
  sheet := .empty
  log := #[]

/- The truth by which every condition but one holds. -/
def allBut (text : String) : Json → Bool :=
  fun json => json.compact ≠ text

/- Whether the layers that an action leaves are all written. -/
def leavesWritten
    (action : Build ε α)
    (w : Workbench) : Bool :=
  (after action w).sheet.layers.all fun layer =>
    layer.writtenNames?.isSome

theorem exists_written_of_mem
    {action : Build ε α}
    {w u : Workbench}
    {a : α}
    {front added : List Layer}
    (h : leavesWritten action w = true)
    (hRun : action w = .ok a u)
    (hLayers : u.sheet.layers = front ++ added)
    {layer : Layer}
    (hLayer : layer ∈ added) :
    ∃ out, layer.write? = .ok (some out) := by
  unfold leavesWritten at h
  rw [after_of_ok hRun, hLayers, List.all_append,
    Bool.and_eq_true] at h
  exact
    Layer.exists_of_writtenNames?
      (List.all_eq_true.mp h.2 layer hLayer)

/-
  With a condition, neither the child nor the sibling keeps
  the filter that the options of the parent give. A child that
  is refined without one keeps it.
-/
theorem refine_emittedFilters_optioned :
    ∃ out,
      optioned.layer.write? = .ok (some out) ∧
        (∃ u layers child sibling childOut siblingOut,
          refine [.expr (.get "c")]
              (Body.runBlock (Recipe.runnerWithin 0) widened)
              optioned =
            .ok () u ∧
            u.sheet.layers = layers ++ [child, sibling] ∧
            child.write? = .ok (some childOut) ∧
            sibling.write? = .ok (some siblingOut) ∧
            ¬ Json.Implies (childOut.get? "filter")
                (out.get? "filter") ∧
            ¬ Json.Implies (siblingOut.get? "filter")
                (out.get? "filter")) ∧
        ∃ u layers child sibling childOut,
          refine []
              (Steps.run ⟨[], Recipe.runnerWithin 0⟩ [])
              optioned =
            .ok [] u ∧
            u.sheet.layers = layers ++ [child, sibling] ∧
            child.write? = .ok (some childOut) ∧
            childOut.get? "filter" = out.get? "filter" := by
  have hParent :
      optioned.layer.writtenNames?.isSome = true := by
    decide +kernel
  have hExtensions :
      optioned.sheet.Filterless fun _ => True := by
    intro name recipe _ hFound
    cases hFound
  rcases Layer.exists_of_writtenNames? hParent with
    ⟨out, hOut⟩
  refine ⟨out, hOut, ?_, ?_⟩
  · have hSucceeds :
        Action.succeeds
            (refine [.expr (.get "c")]
              (Body.runBlock (Recipe.runnerWithin 0) widened))
            optioned =
          true := by
      decide +kernel
    have hWritten :
        leavesWritten
            (refine [.expr (.get "c")]
              (Body.runBlock (Recipe.runnerWithin 0) widened))
            optioned =
          true := by
      decide +kernel
    have hOption :
        Json.holdsOptional (allBut "[\"get\",\"x\"]")
            optioned.layer.optionFilter? =
          false := by
      decide +kernel
    -- A condition that holds where the option does not.
    have hEscapes :
        ∀ condition : (Value → Bool) → Bool,
          condition (writtenTruth (allBut "[\"get\",\"x\"]")) =
              true →
            ¬ (optioned.layer.filter ≠ none ∨
              ∀ truth,
                condition (writtenTruth truth) = true →
                  Json.holdsOptional truth
                      optioned.layer.optionFilter? =
                    true) := by
      rintro condition hHolds (hOwn | hAll)
      · exact hOwn rfl
      · rw [hAll _ hHolds] at hOption
        cases hOption
    rcases Action.exists_of_succeeds hSucceeds with
      ⟨_, u, hRefine⟩
    rcases
      refine_emittedFilters filterless_widened hExtensions
        hRefine with
      ⟨v, siblings, _, hLayers, hLength, _, hFilters⟩
    rcases List.length_eq_one_iff.mp hLength with
      ⟨sibling, rfl⟩
    rcases exists_written_of_mem hWritten hRefine hLayers
        List.mem_cons_self with
      ⟨childOut, hChildOut⟩
    rcases exists_written_of_mem hWritten hRefine hLayers
        (List.mem_cons_of_mem _ List.mem_cons_self) with
      ⟨siblingOut, hSiblingOut⟩
    rcases hFilters out hOut with ⟨hChild, hSiblings⟩
    have hSome :
        (Layer.splitZoom [.expr (.get "c")]).2 ≠ [] := by
      decide
    have hChildIff := hChild childOut hChildOut
    rw [if_neg fun hBare => hSome hBare.1] at hChildIff
    have hSiblingIff :=
      hSiblings 0 _ sibling siblingOut rfl rfl hSiblingOut
    refine
      ⟨u, v.sheet.layers, v.layer, sibling, childOut,
        siblingOut, hRefine, hLayers, hChildOut, hSiblingOut,
        ?_, ?_⟩
    · rw [hChildIff]
      exact
        hEscapes
          (fun truth =>
            holdsArguments truth [.expr (.get "c")] && true)
          (by decide +kernel)
    · rw [hSiblingIff]
      exact
        hEscapes
          (fun truth =>
            holdsArguments truth [.expr (.get "c")] &&
              (Expression.get "k").holds truth)
          (by decide +kernel)
  · have hWritten :
        leavesWritten
            (refine []
              (Steps.run ⟨[], Recipe.runnerWithin 0⟩ [] :
                Build Interrupted (List Entry)))
            optioned =
          true := by
      decide +kernel
    have hBody :
        Filterless (fun _ => True)
          (Steps.run ⟨[], Recipe.runnerWithin 0⟩ []) := by
      refine .steps 0 [] ?_
      intro step hStep
      cases hStep
    have hRefine :
        refine []
            (Steps.run ⟨[], Recipe.runnerWithin 0⟩ [])
            optioned =
          .ok []
            (parentBench [] optioned
              (childBench [] optioned)) :=
      refine_eq_ok.mpr ⟨childBench [] optioned, rfl, rfl⟩
    have hDone :
        Does (Steps.run ⟨[], Recipe.runnerWithin 0⟩ [])
          (childBench [] optioned) .none :=
      .plain (.pure []) _
    rcases refine_emittedFilters hBody hExtensions hRefine with
      ⟨v, siblings, _, hLayers, hLength, _, hFilters⟩
    rcases List.length_eq_one_iff.mp hLength with
      ⟨sibling, rfl⟩
    rcases exists_written_of_mem hWritten hRefine hLayers
        List.mem_cons_self with
      ⟨childOut, hChildOut⟩
    have hChild := (hFilters out hOut).1 childOut hChildOut
    rw [if_pos ⟨rfl, rfl, rfl⟩] at hChild
    have hSame := (hChild .none hDone).1
    exact
      ⟨_, v.sheet.layers, v.layer, sibling, childOut, hRefine,
        hLayers, hChildOut, hSame⟩

end Build

/- A layer whose filter is an option, with a block inside. -/
def Sheet.filteredLayers : String :=
  "layer :a, filter: (x == 1) \x7b
    line_width 1
    on k == 2 \x7b line_width 2 \x7d
  \x7d"

/-
  The block is shown where its parent is not: the filter of
  the parent is among its options.
-/
theorem Sheet.optionFilter_not_implied :
    ∃ t parent child out childOut,
      load (Texts.ofList []) filteredLayers Document.fresh =
          .ok () t ∧
        t.sheet.layers = [parent, child] ∧
        child.id = "a__1" ∧
        parent.write? = .ok (some out) ∧
        child.write? = .ok (some childOut) ∧
        ¬ Json.Implies (childOut.get? "filter")
            (out.get? "filter") := by
  have hCheck :
      (layersOf? filteredLayers).map
          (List.map fun layer =>
            (layer.id, layer.writtenNames?.isSome,
              Json.holdsOptional
                (Build.allBut "[\"==\",[\"get\",\"x\"],1]")
                layer.emittedFilter?)) =
        some [("a", true, false), ("a__1", true, true)] := by
    decide +kernel
  rcases Option.map_eq_some_iff.mp hCheck with
    ⟨layers, hFound, hLayers⟩
  rcases layersOf?_eq_some.mp hFound with ⟨t, hLoad, rfl⟩
  rcases List.map_eq_cons_iff.mp hLayers with
    ⟨parent, rest, hParent, hFirst, hRest⟩
  rcases List.map_eq_singleton_iff.mp hRest with
    ⟨child, rfl, hSecond⟩
  simp only [Prod.mk.injEq] at hFirst hSecond
  rcases Layer.exists_of_writtenNames? hFirst.2.1 with
    ⟨out, hOut⟩
  rcases Layer.exists_of_writtenNames? hSecond.2.1 with
    ⟨childOut, hChildOut⟩
  refine
    ⟨t, parent, child, out, childOut, hLoad, hParent,
      hSecond.1, hOut, hChildOut, ?_⟩
  rw [Layer.get?_filter_of_write? hOut,
    Layer.get?_filter_of_write? hChildOut]
  intro hImplies
  have hHolds := hImplies _ hSecond.2.2
  rw [hFirst.2.2] at hHolds
  cases hHolds

end MapStyle
