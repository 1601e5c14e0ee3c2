import Mathlib.Data.List.Forall2
import MapStyle.Proofs.LayerOrder

/-
  The sources of the layers of a text. The source of a layer
  that a statement defines is settled by its options and by
  the sources that have been declared so far; every layer that
  is derived from it, at any depth, has the same source and
  the same source layer.

  Key definitions include:
    * `Layer.SharesSource`
    * `Origin`
    * `Origin.source?`
    * `Origin.sourceLayer?`
    * `Program.Declares`

  Main statements:
    * `Body.Derives.sharesSource`
    * `Origin.create_source`
    * `Program.Derives.origins`
    * `Sheet.load_sources`
-/

namespace MapStyle

------------------------------------------------------------
-- Shared sources
------------------------------------------------------------

namespace Layer

/- Two layers with the same source and the same source layer. -/
structure SharesSource (layer other : Layer) : Prop where
  source :
    other.properties.get? "source" =
      layer.properties.get? "source"
  sourceLayer :
    other.properties.get? "source_layer" =
      layer.properties.get? "source_layer"

variable {sources : Sources}
variable {layer next other : Layer}

theorem SharesSource.refl (layer : Layer) :
    layer.SharesSource layer :=
  ⟨rfl, rfl⟩

theorem SharesSource.trans
    (hFirst : layer.SharesSource next)
    (hSecond : next.SharesSource other) :
    layer.SharesSource other where
  source := hSecond.source.trans hFirst.source
  sourceLayer := hSecond.sourceLayer.trans hFirst.sourceLayer

/- Only the properties matter. -/
theorem SharesSource.of_properties
    (h : other.properties = layer.properties) :
    layer.SharesSource other := by
  constructor
  · rw [h]
  · rw [h]

theorem sharesSource_put
    (layer : Layer)
    {key : String}
    (value : Value)
    (hSource : "source" ≠ key)
    (hSourceLayer : "source_layer" ≠ key) :
    layer.SharesSource (layer.put key value) := by
  unfold put
  constructor
  · rw [Bag.get?_insert, if_neg hSource]
  · rw [Bag.get?_insert, if_neg hSourceLayer]

/- Neither of the two can be assigned. -/
theorem ne_of_isAssignable
    {key : String}
    (h : Property.IsAssignable key) :
    "source" ≠ key ∧ "source_layer" ≠ key := by
  constructor
  · rintro rfl
    exact h.not_mem_hidden (by decide)
  · rintro rfl
    exact h.not_mem_hidden (by decide)

theorem Performs.sharesSource
    {name : String}
    {values : List Value}
    (h : Performs name values layer next) :
    layer.SharesSource next := by
  cases h with
  | uncascaded => exact .of_properties rfl
  | filter => exact .of_properties rfl
  | rename _ _ =>
      exact sharesSource_put layer _ (by decide) (by decide)
  | suppress => exact .of_properties rfl
  | assign hName hSet =>
      have hKey :=
        ne_of_isAssignable (Meaning.isAssignable_of_property hName)
      rcases set_cases hSet with
        ⟨condition, _, rfl⟩ | ⟨settled, _, _, rfl⟩
      · exact .of_properties rfl
      · exact
          (sharesSource_put layer _ hKey.1 hKey.2).trans
            (.of_properties rfl)
  | value => exact .refl layer

/- The fallback has nothing left to do where layers derive. -/
theorem Sourced.sharesSource_derive
    (h : layer.Sourced sources)
    (id : String) :
    layer.SharesSource (layer.derive id sources) := by
  rw [derive_eq h]
  exact
    (sharesSource_put layer (.text id) (by decide)
      (by decide)).trans (.of_properties rfl)

theorem Sourced.sharesSource_child
    (h : layer.Sourced sources)
    (args : List Value) :
    layer.SharesSource (layer.refine args sources).child := by
  have hDerive := h.sharesSource_derive
  unfold refine
  dsimp only
  cases (splitZoom args).1 with
  | none =>
      exact (hDerive _).trans (.of_properties rfl)
  | some zoom =>
      have hZoom :=
        sharesSource_put
          (layer.derive
            (layer.id ++ "__" ++ countText (layer.children + 1))
            sources)
          zoom (by decide : "source" ≠ "zoom")
          (by decide : "source_layer" ≠ "zoom")
      exact
        ((hDerive _).trans hZoom).trans (.of_properties rfl)

end Layer

namespace Branch

open Layer

/- The overrides of a cascade leave the source of a child. -/
theorem sharesSource_sibling
    {parent : Layer}
    {sources : Sources}
    (h : parent.Sourced sources)
    (condition : Option Expression)
    (child : Layer)
    (index : Nat)
    {cascade : Cascade}
    (hCascade : cascade ∈ parent.cascades) :
    child.SharesSource
      (sibling condition child index cascade) := by
  have hFree :
      ∀ key ∈ cascade.overrides.keys,
        "source" ≠ key ∧ "source_layer" ≠ key :=
    fun key hKey =>
      ne_of_isAssignable (h.overrides cascade hCascade key hKey)
  unfold sibling ofProperties
  constructor
  · rw [Bag.get?_overlay_of_not_mem _
        fun hKey => (hFree _ hKey).1 rfl,
      Bag.get?_insert, if_neg (by decide)]
  · rw [Bag.get?_overlay_of_not_mem _
        fun hKey => (hFree _ hKey).2 rfl,
      Bag.get?_insert, if_neg (by decide)]

theorem sharesSource_of_mem_siblings
    {refinement : Refinement}
    {sources : Sources}
    (h : refinement.parent.Sourced sources)
    {child layer : Layer}
    (hLayer : layer ∈ siblings refinement child) :
    child.SharesSource layer := by
  unfold siblings at hLayer
  rcases List.mem_mapIdx.mp hLayer with ⟨index, hIndex, rfl⟩
  exact
    sharesSource_sibling h _ child index
      (List.getElem_mem hIndex)

end Branch

/-
  Whatever statements derive shares the source of the layer on
  which they work, and so does the layer itself afterwards.
-/
theorem Body.Derives.sharesSource
    {sources : Sources}
    {statements : List Statement}
    {carried kept : List Expression}
    {layer last : Layer}
    {branches : List Branch}
    (h :
      Derives sources statements carried layer kept last
        branches)
    (hLayer : layer.Sourced sources) :
    layer.SharesSource last ∧
      ∀ other ∈ Branch.layersOfAll branches,
        layer.SharesSource other := by
  induction h with
  | nil _ layer =>
      refine ⟨.refl layer, ?_⟩
      intro other hOther
      cases hOther
  | plain _ hStep _ ih =>
      have hNext := hStep.sharesSource
      rcases ih (hStep.sourced hLayer) with ⟨hLast, hOthers⟩
      exact
        ⟨hNext.trans hLast,
          fun other hOther =>
            hNext.trans (hOthers other hOther)⟩
  | @refine _ values _ _ _ _ _ layer child _ inner branches _ _
      _ ihBody ihRest =>
      have hBegun := hLayer.sharesSource_child values
      have hParent := hLayer.refine_parent values
      rcases ihBody (hLayer.refine_child values) with
        ⟨hChild, hInner⟩
      rcases ihRest hParent with ⟨hLast, hOthers⟩
      have hSame :
          layer.SharesSource
            (layer.refine values sources).parent :=
        .of_properties rfl
      refine ⟨hSame.trans hLast, ?_⟩
      intro other hOther
      rw [Branch.layersOfAll, Branch.layers,
        List.append_assoc] at hOther
      rcases List.mem_append.mp hOther with hIn | hLater
      · exact hBegun.trans (hInner other hIn)
      · rcases List.mem_cons.mp hLater with rfl | hBeside
        · exact hBegun.trans hChild
        · rcases List.mem_append.mp hBeside with
            hSibling | hRest
          · have hShared :=
              Branch.sharesSource_of_mem_siblings hParent
                hSibling
            exact (hBegun.trans hChild).trans hShared
          · exact hSame.trans (hOthers other hRest)
  | @cascade _ values _ _ _ _ _ layer reached _ inner branches _
      hBody _ ihBody ihRest =>
      have hActive :=
        hLayer.withActive (Expression.condition? values)
      rcases ihBody hActive with ⟨hReached, hInner⟩
      rcases ihRest
          ((hBody.sourced hActive).withActive none) with
        ⟨hLast, hOthers⟩
      have hBegun :
          layer.SharesSource
            { layer with
              active := Expression.condition? values } :=
        .of_properties rfl
      have hEnded :
          layer.SharesSource { reached with active := none } :=
        (hBegun.trans hReached).trans (.of_properties rfl)
      refine ⟨hEnded.trans hLast, ?_⟩
      intro other hOther
      rw [Branch.layersOfAll_append] at hOther
      rcases List.mem_append.mp hOther with hIn | hRest
      · exact hBegun.trans (hInner other hIn)
      · exact hEnded.trans (hOthers other hRest)

------------------------------------------------------------
-- Origins
------------------------------------------------------------

/-
  Where a layer comes from: the name and the options that a
  statement gives it, and the sources declared by then.
-/
structure Origin where
  id : String
  options : List (String × Value)
  sources : Sources

namespace Origin

/-
  The option of a name, in either spelling; of several the last
  one counts.
-/
def option?
    (origin : Origin)
    (name : String) : Option Value :=
  (Bag.ofList
    (origin.options.map fun o =>
      (Spelling.underscored o.1, o.2))).get? name

/- An option that counts as true. -/
def chosen?
    (origin : Origin)
    (name : String) : Option Value :=
  (origin.option? name).filter Value.isTruthy

/-
  The source: the one that is chosen, else the default, else
  what the options say.
-/
def source? (origin : Origin) : Option Value :=
  ((origin.chosen? "source").or
    (origin.sources.default?.map .text)).or
    (origin.option? "source")

/- Whether the source is a vector source by then. -/
def readsVector (origin : Origin) : Bool :=
  match origin.source? with
  | some (.text name) => origin.sources.isVector name
  | _ => false

/-
  The source layer: the one that is chosen, else the name of
  the layer on a vector source, else what the options say.
-/
def sourceLayer? (origin : Origin) : Option Value :=
  ((origin.chosen? "source_layer").or
    (if origin.readsVector then
      some (.text origin.id)
    else
      none)).or
    (origin.option? "source_layer")

/- The layer with which the body of the statement begins. -/
def begin (origin : Origin) : Layer :=
  Layer.create origin.id origin.options origin.sources

variable (origin : Origin)

/- The options under the name of the layer. -/
def named : Layer :=
  Layer.ofProperties
    ((Bag.ofList
      (origin.options.map fun o =>
        (Spelling.underscored o.1, o.2))).insert "id"
      (.text origin.id))

theorem begin_eq :
    origin.begin =
      (origin.named.withSource origin.sources).withSourceLayer
        origin.id origin.sources := rfl

theorem get?_named
    {name : String}
    (hName : name ≠ "id") :
    origin.named.properties.get? name = origin.option? name := by
  unfold named Layer.ofProperties option?
  rw [Bag.get?_insert, if_neg hName]

/-
  A layer that has the options has one of them exactly if it is
  chosen, and else may fall back.
-/
theorem chosen?_or
    {layer : Layer}
    {name : String}
    (h : layer.properties.get? name = origin.option? name)
    (fallback : Option Value) :
    ((origin.chosen? name).or fallback).or
        (origin.option? name) =
      if layer.has name then
        origin.option? name
      else
        fallback.or (origin.option? name) := by
  unfold chosen? Layer.has
  rw [h]
  cases origin.option? name with
  | none => simp
  | some value =>
      rw [Option.filter_some]
      by_cases hValue : value.isTruthy = true
      · rw [if_pos hValue, if_pos hValue]
        rfl
      · rw [if_neg hValue, if_neg hValue, Option.none_or]

theorem get?_withSource :
    (origin.named.withSource
        origin.sources).properties.get? "source" =
      origin.source? := by
  have hNamed :
      origin.named.properties.get? "source" =
        origin.option? "source" :=
    origin.get?_named (by decide)
  unfold source? Layer.withSource
  rw [origin.chosen?_or hNamed]
  by_cases hHas : origin.named.has "source" = true
  · rw [if_pos hHas, if_pos hHas]
    exact hNamed
  · rw [if_neg hHas, if_neg hHas]
    cases origin.sources.default? with
    | none => exact hNamed
    | some name =>
        unfold Layer.put
        rw [Bag.get?_insert, if_pos rfl]
        rfl

/- The fallback of the source touches nothing else. -/
theorem get?_withSource_of_ne
    {name : String}
    (hName : name ≠ "source") :
    (origin.named.withSource
        origin.sources).properties.get? name =
      origin.named.properties.get? name := by
  rcases Layer.withSource_cases origin.named origin.sources with
    hSame | ⟨value, hPut⟩
  · rw [hSame]
  · rw [hPut]
    unfold Layer.put
    rw [Bag.get?_insert, if_neg hName]

/- A new layer falls back to its name on a vector source. -/
theorem withSourceLayer_eq
    {layer : Layer}
    (hSource :
      layer.properties.get? "source" = origin.source?) :
    layer.withSourceLayer origin.id origin.sources =
      if layer.has "source_layer" then
        layer
      else if origin.readsVector then
        layer.put "source_layer" (.text origin.id)
      else
        layer := by
  have hVector :
      layer.source? = origin.source?.bind Value.text? := by
    unfold Layer.source?
    rw [hSource]
  unfold Layer.withSourceLayer readsVector
  rw [hVector]
  cases origin.source? with
  | none => rfl
  | some value =>
      cases value with
      | text name => rfl
      | _ => rfl

/- How the source of a new layer is settled. -/
theorem begin_source :
    origin.begin.properties.get? "source" =
      origin.source? := by
  rw [begin_eq, ← origin.get?_withSource]
  rcases Layer.withSourceLayer_cases
      (origin.named.withSource origin.sources) origin.id
      origin.sources with
    hSame | ⟨value, hPut⟩
  · rw [hSame]
  · rw [hPut]
    unfold Layer.put
    rw [Bag.get?_insert, if_neg (by decide)]

/- How the source layer of a new layer is settled. -/
theorem begin_sourceLayer :
    origin.begin.properties.get? "source_layer" =
      origin.sourceLayer? := by
  have hOption :
      (origin.named.withSource
          origin.sources).properties.get? "source_layer" =
        origin.option? "source_layer" := by
    rw [origin.get?_withSource_of_ne (by decide)]
    exact origin.get?_named (by decide)
  rw [begin_eq, origin.withSourceLayer_eq origin.get?_withSource,
    sourceLayer?, origin.chosen?_or hOption]
  split
  · exact hOption
  · split
    · unfold Layer.put
      rw [Bag.get?_insert, if_pos rfl]
      rfl
    · exact hOption

end Origin

------------------------------------------------------------
-- Programs
------------------------------------------------------------

namespace Program

/-
  Statements outside of layers lead from sources to others and
  give rise to layers on the way. The rules are those of
  derivations, but the bodies of layers are not looked at.
-/
inductive Declares
    (texts : Texts) :
    Nat → Program → Sources → Sources → List Origin → Prop
  | nil (bound : Nat) (sources : Sources) :
      Declares texts bound [] sources sources []
  | source
    {bound : Nat}
    {args : List Argument}
    {values : List Value}
    {name : String}
    {options : List (String × Value)}
    {rest : Program}
    {sources last : Sources}
    {origins : List Origin}
    (hArgs : Evaluates args values)
    (hOptions :
      Arguments.nameAndOptions values "source" =
        .ok (name, options))
    (hRest :
      Declares texts bound rest
        (sources.insert name (Bag.ofList options)) last
        origins) :
      Declares texts bound (.mk "source" args none :: rest)
        sources last origins
  | layer
    {bound : Nat}
    {args : List Argument}
    {values : List Value}
    {block : Option (List Statement)}
    {id : String}
    {options : List (String × Value)}
    {rest : Program}
    {sources last : Sources}
    {origins : List Origin}
    (hArgs : Evaluates args values)
    (hOptions :
      Arguments.nameAndOptions values "layer" =
        .ok (id, options))
    (hRest : Declares texts bound rest sources last origins) :
      Declares texts bound (.mk "layer" args block :: rest)
        sources last (⟨id, options, sources⟩ :: origins)
  | splice
    {bound : Nat}
    {args : List Argument}
    {values : List Value}
    {file text : String}
    {included rest : Program}
    {sources middle last : Sources}
    {inner origins : List Origin}
    (hArgs : Evaluates args values)
    (hFile : Arguments.text values 0 "include" = .ok file)
    (hText : texts file = .ok text)
    (hRead : Program.read text = .ok included)
    (hIncluded :
      Declares texts bound included sources middle inner)
    (hRest :
      Declares texts (bound + 1) rest middle last origins) :
      Declares texts (bound + 1)
        (.mk "include" args none :: rest) sources last
        (inner ++ origins)
  | property
    {bound : Nat}
    {name : String}
    {args : List Argument}
    {values : List Value}
    {rest : Program}
    {sources last : Sources}
    {origins : List Origin}
    (hArgs : Evaluates args values)
    (hName : name ∉ ["source", "layer", "include"])
    (hRest : Declares texts bound rest sources last origins) :
      Declares texts bound (.mk name args none :: rest)
        sources last origins

end Program

/-
  Every layer of a trunk has the source and the source layer
  that its origin settles.
-/
def Origin.Settles
    (origin : Origin)
    (trunk : Trunk) : Prop :=
  ∀ layer ∈ trunk.layers,
    layer.properties.get? "source" = origin.source? ∧
      layer.properties.get? "source_layer" =
        origin.sourceLayer?

theorem Origin.settles_of_derives
    (origin : Origin)
    {statements : List Statement}
    {carried kept : List Expression}
    {finished : Layer}
    {branches : List Branch}
    (h :
      Body.Derives origin.sources statements carried
        origin.begin kept finished branches) :
    origin.Settles ⟨finished, branches⟩ := by
  rcases h.sharesSource (Layer.create_sourced _ _) with
    ⟨hFinished, hOthers⟩
  have hAll :
      ∀ layer ∈ Trunk.layers ⟨finished, branches⟩,
        origin.begin.SharesSource layer := by
    intro layer hLayer
    rcases List.mem_cons.mp hLayer with rfl | hOther
    · exact hFinished
    · exact hOthers layer hOther
  intro layer hLayer
  rw [← origin.begin_source, ← origin.begin_sourceLayer]
  exact
    ⟨(hAll layer hLayer).source,
      (hAll layer hLayer).sourceLayer⟩

/- Each trunk of a program has an origin that settles it. -/
theorem Program.Derives.origins
    {texts : Texts}
    {bound : Nat}
    {program : Program}
    {sources last : Sources}
    {trunks : List Trunk}
    (h : Derives texts bound program sources last trunks) :
    ∃ origins,
      Declares texts bound program sources last origins ∧
        List.Forall₂ Origin.Settles origins trunks := by
  induction h with
  | nil bound sources => exact ⟨[], .nil _ _, .nil⟩
  | source hArgs hOptions _ ih =>
      rcases ih with ⟨origins, hDeclares, hSettled⟩
      exact ⟨origins, .source hArgs hOptions hDeclares, hSettled⟩
  | @layer _ _ _ _ id options _ sources _ _ _ _ _ hArgs hOptions
      hBody _ ih =>
      rcases ih with ⟨origins, hDeclares, hSettled⟩
      have hFirst :=
        Origin.settles_of_derives ⟨id, options, sources⟩ hBody
      exact
        ⟨_, .layer hArgs hOptions hDeclares,
          .cons hFirst hSettled⟩
  | splice hArgs hFile hText hRead _ _ ihIncluded ihRest =>
      rcases ihIncluded with ⟨inner, hIncluded, hInner⟩
      rcases ihRest with ⟨origins, hDeclares, hSettled⟩
      exact
        ⟨inner ++ origins,
          .splice hArgs hFile hText hRead hIncluded hDeclares,
          List.rel_append hInner hSettled⟩
  | property hArgs hName _ ih =>
      rcases ih with ⟨origins, hDeclares, hSettled⟩
      exact ⟨origins, .property hArgs hName hDeclares, hSettled⟩

------------------------------------------------------------
-- Texts
------------------------------------------------------------

namespace Sheet

/-
  The sources of all layers of a text that is loaded without
  extensions: the statements of the program, included ones
  among them, give rise to origins, and each origin settles
  the source and the source layer of its layer and of all that
  is derived from it.
-/
theorem load_sources
    {texts : Texts}
    {source : String}
    {s t : Session}
    (hEmpty : s.sheet.extensions = .empty)
    (hLoad : load texts source s = .ok () t) :
    ∃ program origins trunks,
      Program.read source = .ok program ∧
        Program.Declares texts Program.maxIncludes program
            s.sheet.sources t.sheet.sources origins ∧
          Program.Derives texts Program.maxIncludes program
              s.sheet.sources t.sheet.sources trunks ∧
            t.sheet.layers =
                s.sheet.layers ++ Trunk.layersOfAll trunks ∧
              List.Forall₂ Origin.Settles origins trunks := by
  rcases load_eq_ok.mp hLoad with ⟨program, hRead, hRun⟩
  rcases Program.yields_of_runWithin _ program hRun hEmpty with
    ⟨trunks, hYields⟩
  rcases hYields.derives.origins with
    ⟨origins, hDeclares, hSettled⟩
  exact
    ⟨program, origins, trunks, hRead, hDeclares,
      hYields.derives, hYields.layers, hSettled⟩

/- A default source that is declared once more. -/
def redeclared : String :=
  "source :s, type: :vector, default: true
  layer :a, source_layer: false \x7b
    cascade k \x7b line_width 1 \x7d
    on \x7b id :b
      on \x7d
  \x7d
  source :s, type: :raster
  layer :c, source: false
  layer :d, source: :s"

/- The texts under the names of the source of a layer. -/
def sourceTexts
    (layer : Layer) :
    String × Option (Option String) × Option (Option String) :=
  (layer.id, (layer.properties.get? "source").map Value.text?,
    (layer.properties.get? "source_layer").map Value.text?)

/-
  All that is derived from the first layer reads the part with
  its name, a child that is renamed and its siblings as well;
  the layers after the second declaration fall back to nothing.
-/
theorem load_sources_redeclared :
    ∃ t program origins trunks,
      load (Texts.ofList []) redeclared Document.fresh =
          .ok () t ∧
        t.sheet.layers.map sourceTexts =
          [("a", some (some "s"), some (some "a")),
            ("b__1", some (some "s"), some (some "a")),
            ("b__1__a", some (some "s"), some (some "a")),
            ("b", some (some "s"), some (some "a")),
            ("b__a", some (some "s"), some (some "a")),
            ("c", some none, none),
            ("d", some (some "s"), none)] ∧
        Program.read redeclared = .ok program ∧
        Program.Declares (Texts.ofList []) Program.maxIncludes
          program .empty t.sheet.sources origins ∧
        t.sheet.layers = Trunk.layersOfAll trunks ∧
        List.Forall₂ Origin.Settles origins trunks := by
  have hTexts :
      (layersOf? redeclared).map (List.map sourceTexts) =
        some
          [("a", some (some "s"), some (some "a")),
            ("b__1", some (some "s"), some (some "a")),
            ("b__1__a", some (some "s"), some (some "a")),
            ("b", some (some "s"), some (some "a")),
            ("b__a", some (some "s"), some (some "a")),
            ("c", some none, none),
            ("d", some (some "s"), none)] := by
    decide +kernel
  rcases Option.map_eq_some_iff.mp hTexts with
    ⟨layers, hFound, hLayers⟩
  rcases layersOf?_eq_some.mp hFound with ⟨t, hLoad, rfl⟩
  rcases load_sources rfl hLoad with
    ⟨program, origins, trunks, hRead, hDeclares, _, hOrder,
      hSettled⟩
  exact
    ⟨t, program, origins, trunks, hLoad, hLayers, hRead,
      hDeclares, hOrder, hSettled⟩

end Sheet

end MapStyle
