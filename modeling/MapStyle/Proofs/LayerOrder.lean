import MapStyle.Document
import MapStyle.Proofs.ProgramRun

/-
  The order of the layers of a text: the stylesheet has the
  layers of the derivation of its program, whatever the depth
  to which its blocks are nested, and every sibling is named
  after the finished child.

  Main statements:
    * `Body.Derives.nested_sourced`
    * `Body.layers_length_le_of_runBlock`
    * `Sheet.load_layers`
-/

namespace MapStyle

------------------------------------------------------------
-- Siblings
------------------------------------------------------------

namespace Branch

/- A branch between two sourced layers. -/
def Sourced
    (sources : Sources) : Branch → Prop
  | .mk refinement _ _ child =>
      refinement.parent.Sourced sources ∧
        child.Sourced sources

/-
  The siblings of a branch: one for each cascade that its
  parent had, named after the finished child, with the
  properties of the child and the overrides of the cascade
  over them.
-/
structure NamesSiblings
    (refinement : Refinement)
    (child : Layer) : Prop where
  length :
    (siblings refinement child).length =
      refinement.parent.cascades.length
  each :
    ∀ index cascade,
      refinement.parent.cascades[index]? = some cascade →
        ∃ layer,
          (siblings refinement child)[index]? = some layer ∧
            layer.id = Refinement.siblingId child index ∧
              layer.properties =
                (child.properties.insert "id"
                  (.text
                    (Refinement.siblingId child index))).overlay
                  cascade.overrides.entries

/- The overrides of a cascade leave the name of a sibling. -/
theorem sibling_id
    (condition : Option Expression)
    (child : Layer)
    (index : Nat)
    {cascade : Cascade}
    (hName : "id" ∉ cascade.overrides.keys) :
    (sibling condition child index cascade).id =
      Refinement.siblingId child index := by
  let name := Value.text (Refinement.siblingId child index)
  have hGet :
      ((child.properties.insert "id" name).overlay
          cascade.overrides.entries).get? "id" =
        some name := by
    rw [Bag.get?_overlay_of_not_mem _ hName,
      Bag.get?_insert, if_pos rfl]
  unfold sibling Layer.id Layer.ofProperties
  dsimp only
  rw [hGet]

theorem Sourced.namesSiblings
    {sources : Sources}
    {refinement : Refinement}
    {carried : List Expression}
    {inner : List Branch}
    {child : Layer}
    (h :
      Sourced sources (.mk refinement carried inner child)) :
    NamesSiblings refinement child where
  length := by
    unfold siblings
    exact List.length_mapIdx
  each := by
    intro index cascade hCascade
    have hMem := List.mem_of_getElem? hCascade
    have hName : "id" ∉ cascade.overrides.keys := by
      intro hKey
      have hAssignable := h.1.overrides cascade hMem _ hKey
      exact hAssignable.not_mem_hidden (by decide)
    refine
      ⟨sibling refinement.condition child index cascade, ?_,
        sibling_id _ _ _ hName, rfl⟩
    unfold siblings
    rw [List.getElem?_mapIdx, hCascade]
    rfl

end Branch

------------------------------------------------------------
-- Nested branches
------------------------------------------------------------

/-
  At any depth, the branches that a sourced layer derives are
  branches between sourced layers.
-/
theorem Body.Derives.nested_sourced
    {sources : Sources}
    {statements : List Statement}
    {carried kept : List Expression}
    {layer last : Layer}
    {branches : List Branch}
    (h :
      Body.Derives sources statements carried layer kept last
        branches)
    (hLayer : layer.Sourced sources) :
    ∀ branch ∈ Branch.nestedInAll branches,
      branch.Sourced sources := by
  induction h with
  | nil _ _ =>
      intro branch hBranch
      cases hBranch
  | plain _ hStep _ ih => exact ih (hStep.sourced hLayer)
  | @refine _ values _ _ _ _ _ _ _ _ _ _ _ hBody _ ihBody
      ihRest =>
      have hChild := hLayer.refine_child values
      have hParent := hLayer.refine_parent values
      intro branch hBranch
      rw [Branch.nestedInAll, Branch.nested,
        List.append_assoc] at hBranch
      rcases List.mem_append.mp hBranch with hInner | hOuter
      · exact ihBody hChild branch hInner
      · rcases List.mem_cons.mp hOuter with rfl | hRest
        · exact ⟨hParent, hBody.sourced hChild⟩
        · exact ihRest hParent branch hRest
  | @cascade _ values _ _ _ _ _ _ _ _ _ _ _ hBody _ ihBody
      ihRest =>
      have hActive :=
        hLayer.withActive (Expression.condition? values)
      intro branch hBranch
      rw [Branch.nestedInAll_append] at hBranch
      rcases List.mem_append.mp hBranch with hInner | hRest
      · exact ihBody hActive branch hInner
      · exact
          ihRest ((hBody.sourced hActive).withActive _)
            branch hRest

/- The same for every layer of a program. -/
theorem Program.Derives.namesSiblings
    {texts : Texts}
    {bound : Nat}
    {program : Program}
    {sources last : Sources}
    {trunks : List Trunk}
    (h : Derives texts bound program sources last trunks) :
    ∀ refinement carried inner child,
      Branch.mk refinement carried inner child ∈
          Trunk.nestedInAll trunks →
        Branch.NamesSiblings refinement child := by
  induction h with
  | nil _ _ =>
      intro refinement carried inner child hBranch
      cases hBranch
  | source _ _ _ ih => exact ih
  | layer _ _ hBody _ ih =>
      intro refinement carried inner child hBranch
      rcases List.mem_append.mp hBranch with hFirst | hRest
      · have hSourced :=
          hBody.nested_sourced (Layer.create_sourced _ _) _
            hFirst
        exact hSourced.namesSiblings
      · exact ih refinement carried inner child hRest
  | splice _ _ _ _ _ _ ihIncluded ihRest =>
      intro refinement carried inner child hBranch
      unfold Trunk.nestedInAll at hBranch
      rw [List.flatMap_append] at hBranch
      rcases List.mem_append.mp hBranch with hInner | hRest
      · exact
          ihIncluded refinement carried inner child hInner
      · exact ihRest refinement carried inner child hRest
  | property _ _ _ ih => exact ih

------------------------------------------------------------
-- Texts
------------------------------------------------------------

/-
  While a layer is at work, the stylesheet keeps the layers
  that it had, so that the place of the layer lies within it.
-/
theorem Body.layers_length_le_of_runBlock
    {id : String}
    {options : List (String × Value)}
    {block : Option (List Statement)}
    {s : Session}
    {w : Workbench}
    (hEmpty : s.sheet.extensions = .empty)
    (h :
      runBlock Recipe.runner block
          (Sheet.layerBench id options s) =
        .ok () w) :
    s.sheet.layers.length ≤ w.sheet.layers.length := by
  rcases derives_of_runBlock block [] hEmpty
      (Layer.create_sourced id options) h with
    ⟨_, inner, hSheet, _⟩
  rw [hSheet]
  unfold Stylesheet.append
  rw [List.length_append]
  exact Nat.le_add_right _ _

namespace Sheet

/- The layers of a text that is loaded on its own. -/
def layersOf? (source : String) : Option (List Layer) :=
  match load (Texts.ofList []) source Document.fresh with
  | .ok _ t => some t.sheet.layers
  | .error _ _ => none

theorem layersOf?_eq_some
    {source : String}
    {layers : List Layer} :
    layersOf? source = some layers ↔
      ∃ t,
        load (Texts.ofList []) source Document.fresh =
            .ok () t ∧
          t.sheet.layers = layers := by
  unfold layersOf?
  cases load (Texts.ofList []) source Document.fresh with
  | ok _ t =>
      constructor
      · intro h
        cases h
        exact ⟨t, rfl, rfl⟩
      · rintro ⟨_, hLoad, rfl⟩
        cases hLoad
        rfl
  | error e t =>
      constructor
      · intro h
        cases h
      · rintro ⟨_, hLoad, _⟩
        cases hLoad

theorem load_eq_ok
    {texts : Texts}
    {source : String}
    {s t : Session} :
    load texts source s = .ok () t ↔
      ∃ program,
        Program.read source = .ok program ∧
          Program.run texts program s = .ok () t := by
  unfold load
  cases Program.read source with
  | error e =>
      constructor
      · intro h
        cases h
      · rintro ⟨_, hRead, _⟩
        cases hRead
  | ok found =>
      constructor
      · intro h
        exact ⟨found, rfl, h⟩
      · rintro ⟨_, hRead, h⟩
        cases hRead
        exact h

/-
  A text that is loaded without extensions has a derivation,
  and every derivation of it flattens to the layers that the
  stylesheet gets.
-/
theorem load_layers
    {texts : Texts}
    {source : String}
    {s t : Session}
    (hEmpty : s.sheet.extensions = .empty)
    (hLoad : load texts source s = .ok () t) :
    ∃ program,
      Program.read source = .ok program ∧
        (∃ trunks,
          Program.Derives texts Program.maxIncludes program
            s.sheet.sources t.sheet.sources trunks) ∧
          (∀ last trunks,
            Program.Derives texts Program.maxIncludes program
                s.sheet.sources last trunks →
              t.sheet.sources = last ∧
                t.sheet.layers =
                  s.sheet.layers
                    ++ Trunk.layersOfAll trunks ∧
                  ∀ refinement carried inner child,
                    Branch.mk refinement carried inner child ∈
                        Trunk.nestedInAll trunks →
                      Branch.NamesSiblings refinement
                        child) ∧
            ∀ id options block u w,
              u.sheet.extensions = .empty →
                Body.runBlock Recipe.runner block
                    (layerBench id options u) =
                  .ok () w →
                  u.sheet.layers.length ≤
                    w.sheet.layers.length := by
  rcases load_eq_ok.mp hLoad with ⟨program, hRead, hRun⟩
  rcases Program.yields_of_runWithin _ program hRun hEmpty with
    ⟨trunks, hYields⟩
  refine
    ⟨program, hRead, ⟨trunks, hYields.derives⟩, ?_, ?_⟩
  · intro last trunks hDerives
    rcases hDerives.runWithin hEmpty rfl with
      ⟨u, hSame, hLast, hLayers⟩
    have hFinal : u = t := by
      have hBoth := hSame.symm.trans hRun
      cases hBoth
      rfl
    rw [hFinal] at hLast hLayers
    exact ⟨hLast, hLayers.layers, hDerives.namesSiblings⟩
  · intro id options block u w hWithout hBody
    exact Body.layers_length_le_of_runBlock hWithout hBody

/- Blocks inside of each other, with a child that is renamed. -/
def nestedBlocks : String :=
  "layer :a \x7b
    cascade k == 1 \x7b line_color :red
      on 5..7 \x7b line_width 2 \x7d \x7d
    on k == 2 \x7b id :b
      on \x7b line_opacity 1 \x7d \x7d
  \x7d
  layer :c"

theorem load_layers_nestedBlocks :
    ∃ t program trunks,
      load (Texts.ofList []) nestedBlocks Document.fresh =
          .ok () t ∧
        t.sheet.layers.map Layer.id =
          ["a", "a__1", "a__1__a", "b__1", "b__1__a", "b",
            "b__a", "c"] ∧
        Program.read nestedBlocks = .ok program ∧
        Program.Derives (Texts.ofList []) Program.maxIncludes
          program .empty t.sheet.sources trunks ∧
        t.sheet.layers = Trunk.layersOfAll trunks := by
  have hIds :
      (layersOf? nestedBlocks).map (List.map Layer.id) =
        some
          ["a", "a__1", "a__1__a", "b__1", "b__1__a", "b",
            "b__a", "c"] := by
    decide +kernel
  rcases Option.map_eq_some_iff.mp hIds with
    ⟨layers, hLayers, hNames⟩
  rcases layersOf?_eq_some.mp hLayers with ⟨t, hLoad, rfl⟩
  rcases load_layers rfl hLoad with
    ⟨program, hRead, ⟨trunks, hDerives⟩, hEvery, _⟩
  rcases hEvery _ _ hDerives with ⟨_, hOrder, _⟩
  exact
    ⟨t, program, trunks, hLoad, hNames, hRead, hDerives,
      hOrder⟩

end Sheet

end MapStyle
