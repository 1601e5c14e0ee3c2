import Mathlib.Data.List.Forall2
import MapStyle.Document.Reference
import MapStyle.Proofs.Bag

/-
  References between written layers. A collapsed list can be
  expanded again: every layer that refers to another one takes
  over the shared members of that layer.

  Key definitions include:
    * `Reference.expandOne`
    * `Reference.expand`
    * `Reference.IsFirstLike`

  Main statements:
    * `Reference.outcome_collapseFrom`
    * `Reference.get?_refer`
    * `Reference.expand_collapse`
-/

namespace MapStyle

namespace Reference

------------------------------------------------------------
-- Expansion
------------------------------------------------------------

/-
  A layer with the shared members of the layer that it refers
  to, in the place of the reference.
-/
def expandOne
    (layers : List (Bag Json))
    (layer : Bag Json) : Bag Json :=
  match layer.get? "ref" with
  | none => layer
  | some name =>
      let plain := layer.erase "ref"
      match name with
      | .text id =>
          match layers.find? fun l => id? l = some id with
          | some target => plain.overlay (shared target)
          | none => plain
      | _ => plain

/- Expand all layers of a list by layers of the same list. -/
def expand (layers : List (Bag Json)) : List (Bag Json) :=
  layers.map (expandOne layers)

/-
  The first layer of a list with the shared members of a
  layer, and its place. Members are shared if their trees are
  the same, the order of members in them included.
-/
structure IsFirstLike
    (layers : List (Bag Json))
    (layer : Bag Json)
    (place : Nat)
    (target : Bag Json) : Prop where
  found : layers[place]? = some target
  same : shared target = shared layer
  first :
    ∀ earlier < place, ∀ other,
      layers[earlier]? = some other →
        shared other ≠ shared layer

------------------------------------------------------------
-- Shared members
------------------------------------------------------------

variable {layer target : Bag Json}

theorem keys_shared (layer : Bag Json) :
    ((shared layer).map Prod.fst).Sublist fields := by
  unfold shared
  induction fields with
  | nil => exact List.Sublist.refl _
  | cons field rest ih =>
      cases hField : layer.get? field with
      | none =>
          rw [List.filterMap_cons_none (by rw [hField]; rfl)]
          exact ih.cons _
      | some json =>
          rw [List.filterMap_cons_some (by rw [hField]; rfl)]
          exact ih.cons_cons _

theorem keys_shared_nodup (layer : Bag Json) :
    ((shared layer).map Prod.fst).Nodup :=
  (keys_shared layer).nodup (by decide)

theorem find?_shared
    (layer : Bag Json)
    (name : String) :
    Entries.find? name (shared layer) =
      if name ∈ fields then layer.get? name else none := by
  unfold shared
  induction fields with
  | nil => rfl
  | cons field rest ih =>
      cases hField : layer.get? field with
      | none =>
          rw [List.filterMap_cons_none (by rw [hField]; rfl), ih]
          by_cases hName : name = field
          · simp [hName, hField]
          · simp [hName]
      | some json =>
          rw [List.filterMap_cons_some (by rw [hField]; rfl)]
          by_cases hName : field = name
          · subst hName
            simp [Entries.find?, hField]
          · have hNe : name ≠ field := fun e => hName e.symm
            rw [Entries.find?, if_neg hName, ih]
            simp [hNe]

/- Layers that share members have the same values there. -/
theorem get?_eq_of_shared_eq
    (h : shared target = shared layer)
    {name : String}
    (hName : name ∈ fields) :
    target.get? name = layer.get? name := by
  have hTarget := find?_shared target name
  have hLayer := find?_shared layer name
  rw [if_pos hName] at hTarget hLayer
  rw [← hTarget, h, hLayer]

theorem get?_refer
    (layer : Bag Json)
    (id name : String) :
    (refer layer id).get? name =
      if name = "ref" then some (.text id)
      else if name ∈ fields then none
      else layer.get? name := by
  rw [refer, Bag.get?_insert, Bag.get?_foldl_erase]

/- A layer is known by its own name after it refers to another. -/
theorem id?_refer
    (layer : Bag Json)
    (id : String) :
    id? (refer layer id) = id? layer := by
  rw [id?, id?, get?_refer, if_neg (by decide),
    if_neg (by decide)]

/-
  Whatever a layer gives up for a reference comes back with
  the shared members of the layer referred to.
-/
theorem get?_restored
    (hRef : layer.get? "ref" = none)
    (hShared : shared target = shared layer)
    (id name : String) :
    (((refer layer id).erase "ref").overlay
        (shared target)).get? name =
      layer.get? name := by
  rw [Bag.get?_overlay _ (keys_shared_nodup target),
    Bag.get?_erase, find?_shared, get?_refer]
  by_cases hField : name ∈ fields
  · rw [if_pos hField, get?_eq_of_shared_eq hShared hField]
    cases hName : layer.get? name with
    | some json => rfl
    | none =>
        have hNe : name ≠ "ref" := by
          rintro rfl
          revert hField
          decide
        simp [hNe, hField]
  · rw [if_neg hField, Option.none_or]
    by_cases hName : name = "ref"
    · rw [if_pos hName, hName, hRef]
    · rw [if_neg hName, if_neg hName, if_neg hField]

------------------------------------------------------------
-- The collapsed list
------------------------------------------------------------

/- The first layer that has the shared text of a layer. -/
def firstLike?
    (before : List (Bag Json))
    (layer : Bag Json) : Option (Bag Json) :=
  before.find? fun l => sharedText l = sharedText layer

/- A layer as it stands after the layers before it. -/
def collapsedOne
    (before : List (Bag Json))
    (layer : Bag Json) : Bag Json :=
  match (firstLike? before layer).bind id? with
  | some id => refer layer id
  | none => layer

/- Layers as they stand after the layers before them. -/
def collapsedAfter
    (before : List (Bag Json)) :
    List (Bag Json) → List (Bag Json)
  | [] => []
  | layer :: rest =>
      collapsedOne before layer ::
        collapsedAfter (before ++ [layer]) rest

theorem getElem?_collapsedAfter
    (before layers : List (Bag Json))
    (place : Nat) :
    (collapsedAfter before layers)[place]? =
      layers[place]?.map
        (collapsedOne (before ++ layers.take place)) := by
  induction layers generalizing before place with
  | nil => simp [collapsedAfter]
  | cons layer rest ih =>
      cases place with
      | zero => simp [collapsedAfter]
      | succ place => simp [collapsedAfter, ih]

/- The table holds the first layer for each shared text. -/
def Records
    (seen : List (String × String))
    (before : List (Bag Json)) : Prop :=
  ∀ text,
    seen.lookup text =
      (before.find? fun l => sharedText l = text).bind id?

variable {seen : List (String × String)}
variable {before : List (Bag Json)}

/- A layer with a text that is known changes no entry. -/
theorem Records.append_known
    {id : String}
    (h : Records seen before)
    (hKnown : seen.lookup (sharedText layer) = some id) :
    Records seen (before ++ [layer]) := by
  intro text
  rw [h text, List.find?_append]
  by_cases hText : sharedText layer = text
  · rw [hText, h text] at hKnown
    rcases Option.bind_eq_some_iff.mp hKnown with
      ⟨target, hTarget, _⟩
    rw [hTarget, Option.some_or]
  · simp [hText]

/- A layer with a new text gets an entry. -/
theorem Records.append_new
    {id : String}
    (h : Records seen before)
    (hIds : ∀ l ∈ before, (id? l).isSome = true)
    (hId : id? layer = some id)
    (hNew : seen.lookup (sharedText layer) = none) :
    Records ((sharedText layer, id) :: seen)
      (before ++ [layer]) := by
  intro text
  rw [List.lookup_cons, List.find?_append]
  by_cases hText : text = sharedText layer
  · subst hText
    have hNone :
        before.find? (fun l => sharedText l = sharedText layer) =
          none := by
      rw [h, Option.bind_eq_none_iff] at hNew
      cases hFound :
          before.find? fun l =>
            sharedText l = sharedText layer with
      | none => rfl
      | some target =>
          have hSome :=
            hIds target (List.mem_of_find?_eq_some hFound)
          rw [hNew target hFound] at hSome
          cases hSome
    rw [hNone]
    simp [hId]
  · have hNe : ¬sharedText layer = text := fun e => hText e.symm
    have hBeq : (text == sharedText layer) = false := by
      simpa using hText
    rw [hBeq, h text]
    simp [hNe]

theorem outcome_collapseFrom
    {ε : Type}
    {layers : List (Bag Json)}
    (h : Records seen before)
    (hBefore : ∀ l ∈ before, (id? l).isSome = true)
    (hLayers : ∀ l ∈ layers, (id? l).isSome = true) :
    (collapseFrom seen layers :
        Traced ε (List (Bag Json))).outcome =
      .ok (collapsedAfter before layers) := by
  induction layers generalizing seen before with
  | nil => rfl
  | cons layer rest ih =>
      rw [List.forall_mem_cons] at hLayers
      rcases hLayers with ⟨hLayer, hRest⟩
      rcases Option.isSome_iff_exists.mp hLayer with ⟨id, hId⟩
      have hAppend :
          ∀ l ∈ before ++ [layer], (id? l).isSome = true := by
        intro l hMem
        rcases List.mem_append.mp hMem with hOld | hLast
        · exact hBefore l hOld
        · rw [List.mem_singleton.mp hLast]
          exact hLayer
      rw [collapseFrom, hId, collapsedAfter, collapsedOne,
        firstLike?, ← h]
      dsimp only
      cases hSeen : seen.lookup (sharedText layer) with
      | some target =>
          have hMore := ih (h.append_known hSeen) hAppend hRest
          rw [Traced.outcome_bind (a := ()) rfl,
            Traced.outcome_bind hMore]
          rfl
      | none =>
          have hMore :=
            ih (h.append_new hBefore hId hSeen) hAppend hRest
          rw [Traced.outcome_bind hMore]
          rfl

------------------------------------------------------------
-- First layers
------------------------------------------------------------

variable {layers : List (Bag Json)}

/-
  Among layers whose shared members can be told apart by their
  text, the layer found by its text is the first one that
  shares its members.
-/
theorem exists_isFirstLike
    (hText :
      ∀ a ∈ layers, ∀ b ∈ layers,
        sharedText a = sharedText b → shared a = shared b)
    (hLayer : layer ∈ layers)
    {place : Nat}
    (hFound :
      firstLike? (layers.take place) layer = some target) :
    ∃ earlier < place,
      IsFirstLike layers layer earlier target := by
  rw [firstLike?, List.find?_eq_some_iff_getElem] at hFound
  rcases hFound with ⟨hSame, earlier, hEarlier, hTarget, hOthers⟩
  rw [List.length_take] at hEarlier
  have hPlace : earlier < place := by omega
  have hAt : layers[earlier]? = some target := by
    rw [List.getElem_take] at hTarget
    rw [← hTarget]
    exact List.getElem?_eq_getElem _
  have hMem := List.mem_of_getElem? hAt
  refine ⟨earlier, hPlace, hAt, ?_, ?_⟩
  · exact hText target hMem layer hLayer (by simpa using hSame)
  · intro k hk other hOther hShared
    rcases List.getElem?_eq_some_iff.mp hOther with
      ⟨hLength, hGet⟩
    have hNot := hOthers k hk
    rw [List.getElem_take, hGet] at hNot
    simp [sharedText, hShared] at hNot

/- No layer before a place shares its members with another. -/
theorem shared_ne_of_firstLike?_eq_none
    {place : Nat}
    (hNone : firstLike? (layers.take place) layer = none) :
    ∀ earlier < place, ∀ other,
      layers[earlier]? = some other →
        shared other ≠ shared layer := by
  intro earlier hEarlier other hOther hShared
  rw [firstLike?, List.find?_eq_none] at hNone
  have hTake : (layers.take place)[earlier]? = some other := by
    rw [List.getElem?_take_of_lt hEarlier, hOther]
  have hNot := hNone other (List.mem_of_getElem? hTake)
  simp [sharedText, hShared] at hNot

/- A first layer is not collapsed itself. -/
theorem IsFirstLike.collapsed
    (hText :
      ∀ a ∈ layers, ∀ b ∈ layers,
        sharedText a = sharedText b → shared a = shared b)
    {place : Nat}
    (h : IsFirstLike layers layer place target) :
    (collapsedAfter [] layers)[place]? = some target := by
  have hMem := List.mem_of_getElem? h.found
  rw [getElem?_collapsedAfter, h.found, Option.map_some,
    List.nil_append, collapsedOne]
  cases hFirst : firstLike? (layers.take place) target with
  | none => rfl
  | some other =>
      rcases exists_isFirstLike hText hMem hFirst with
        ⟨earlier, hEarlier, hOther⟩
      exact absurd (hOther.same.trans h.same)
        (h.first earlier hEarlier other hOther.found)

/- Layers keep the names by which they are known. -/
theorem map_id?_collapsedAfter
    (before layers : List (Bag Json)) :
    (collapsedAfter before layers).map id? =
      layers.map id? := by
  induction layers generalizing before with
  | nil => rfl
  | cons layer rest ih =>
      rw [collapsedAfter, List.map_cons, List.map_cons, ih,
        collapsedOne]
      split
      · rw [id?_refer]
      · rfl

/- A name that only one layer has leads to that layer. -/
theorem find?_id?
    {id : String}
    (hDistinct : (layers.map id?).Nodup)
    (hTarget : target ∈ layers)
    (hId : id? target = some id) :
    (layers.find? fun l => id? l = some id) = some target := by
  induction layers with
  | nil => cases hTarget
  | cons first rest ih =>
      rw [List.map_cons, List.nodup_cons] at hDistinct
      rcases hDistinct with ⟨hNew, hRest⟩
      rcases List.mem_cons.mp hTarget with rfl | hMem
      · exact List.find?_cons_of_pos (by simpa using hId)
      · have hNe : id? first ≠ some id := by
          intro hSame
          apply hNew
          rw [hSame, ← hId]
          exact List.mem_map_of_mem hMem
        rw [List.find?_cons_of_neg (by simpa using hNe)]
        exact ih hRest hMem

------------------------------------------------------------
-- Collapsing and expanding
------------------------------------------------------------

/- The text identifier of a layer is what it is known by. -/
theorem id?_eq_some
    {id : String}
    (h : layer.get? "id" = some (.text id)) :
    id? layer = some id := by
  rw [id?, h, Option.map_some]

/-
  Whether a layer is left alone or refers to the first layer
  that it shares its members with.
-/
theorem collapsedOne_cases
    (hIds : ∀ l ∈ layers, ∃ s, l.get? "id" = some (.text s))
    (hText :
      ∀ a ∈ layers, ∀ b ∈ layers,
        sharedText a = sharedText b → shared a = shared b)
    {place : Nat}
    (hLayer : layers[place]? = some layer) :
    (collapsedOne (layers.take place) layer = layer ∧
      ∀ earlier < place, ∀ other,
        layers[earlier]? = some other →
          shared other ≠ shared layer) ∨
      ∃ earlier < place,
        ∃ target id,
          target.get? "id" = some (.text id) ∧
            IsFirstLike layers layer earlier target ∧
            collapsedOne (layers.take place) layer =
              refer layer id := by
  unfold collapsedOne
  cases hFirst : firstLike? (layers.take place) layer with
  | none =>
      exact Or.inl
        ⟨rfl, shared_ne_of_firstLike?_eq_none hFirst⟩
  | some target =>
      rcases exists_isFirstLike hText
          (List.mem_of_getElem? hLayer) hFirst with
        ⟨earlier, hEarlier, hTarget⟩
      rcases hIds target
          (List.mem_of_getElem? hTarget.found) with
        ⟨id, hId⟩
      refine
        Or.inr ⟨earlier, hEarlier, target, id, hId, hTarget, ?_⟩
      rw [Option.bind_some, id?_eq_some hId]

/- A reference to a first layer is expanded to what it was. -/
theorem get?_expandOne_refer
    (hText :
      ∀ a ∈ layers, ∀ b ∈ layers,
        sharedText a = sharedText b → shared a = shared b)
    (hDistinct : (layers.map id?).Nodup)
    (hRef : layer.get? "ref" = none)
    {place : Nat}
    {id : String}
    (hId : target.get? "id" = some (.text id))
    (hTarget : IsFirstLike layers layer place target)
    (name : String) :
    (expandOne (collapsedAfter [] layers)
        (refer layer id)).get? name =
      layer.get? name := by
  have hFind :
      ((collapsedAfter [] layers).find?
          fun l => id? l = some id) =
        some target := by
    apply find?_id? _ _ (id?_eq_some hId)
    · rw [map_id?_collapsedAfter]
      exact hDistinct
    · exact List.mem_of_getElem? (hTarget.collapsed hText)
  have hOwn :
      (refer layer id).get? "ref" = some (.text id) := by
    rw [get?_refer, if_pos rfl]
  rw [expandOne, hOwn]
  dsimp only
  rw [hFind]
  exact get?_restored hRef hTarget.same id name

/- A collapsed layer is expanded to what it was. -/
theorem expandOne_collapsedOne_perm
    (hIds : ∀ l ∈ layers, ∃ s, l.get? "id" = some (.text s))
    (hDistinct : (layers.map id?).Nodup)
    (hText :
      ∀ a ∈ layers, ∀ b ∈ layers,
        sharedText a = sharedText b → shared a = shared b)
    (hRef : layer.get? "ref" = none)
    {place : Nat}
    (hLayer : layers[place]? = some layer) :
    (expandOne (collapsedAfter [] layers)
        (collapsedOne (layers.take place) layer)).entries.Perm
      layer.entries := by
  apply Bag.perm_of_get?_eq
  intro name
  rcases collapsedOne_cases hIds hText hLayer with
    ⟨hSame, _⟩ | ⟨earlier, _, target, id, hId, hTarget, hRefer⟩
  · rw [hSame, expandOne, hRef]
  · rw [hRefer]
    exact
      get?_expandOne_refer hText hDistinct hRef hId hTarget name

theorem length_collapsedAfter
    (before layers : List (Bag Json)) :
    (collapsedAfter before layers).length = layers.length := by
  have hLength :=
    congrArg List.length (map_id?_collapsedAfter before layers)
  rwa [List.length_map, List.length_map] at hLength

/-
  Collapsing loses nothing: expanding the collapsed list gives
  the layers back, in order and up to the order of members. A
  layer is left alone if no earlier layer shares its members;
  else it refers to the first one that does, which itself is
  left alone.
-/
theorem expand_collapse
    {ε : Type}
    {layers : List (Bag Json)}
    (hIds : ∀ l ∈ layers, ∃ s, l.get? "id" = some (.text s))
    (hDistinct : (layers.map id?).Nodup)
    (hPlain : ∀ l ∈ layers, l.get? "ref" = none)
    (hText :
      ∀ a ∈ layers, ∀ b ∈ layers,
        sharedText a = sharedText b → shared a = shared b) :
    ∃ collapsed,
      (collapse layers :
          Traced ε (List (Bag Json))).outcome =
        .ok collapsed ∧
        List.Forall₂
          (fun expanded original =>
            expanded.entries.Perm original.entries)
          (expand collapsed) layers ∧
        ∀ (place : Nat) (original layer : Bag Json),
          layers[place]? = some original →
          collapsed[place]? = some layer →
            match layer.get? "ref" with
            | none =>
                layer = original ∧
                  ∀ earlier < place, ∀ other,
                    layers[earlier]? = some other →
                      shared other ≠ shared original
            | some name =>
                ∃ earlier < place,
                  ∃ target id,
                    name = .text id ∧
                      target.get? "id" = some (.text id) ∧
                      target.get? "ref" = none ∧
                      collapsed[earlier]? = some target ∧
                      IsFirstLike layers original earlier
                        target ∧
                      layer = refer original id := by
  have hKnown : ∀ l ∈ layers, (id? l).isSome = true := by
    intro l hMem
    rcases hIds l hMem with ⟨id, hId⟩
    rw [id?_eq_some hId, Option.isSome_some]
  refine ⟨collapsedAfter [] layers, ?_, ?_, ?_⟩
  · exact outcome_collapseFrom (fun _ => rfl) (by simp) hKnown
  · rw [List.forall₂_iff_get]
    refine ⟨?_, ?_⟩
    · rw [expand, List.length_map, length_collapsedAfter]
    · intro place hExpanded hOriginal
      have hRef := hPlain _ (List.getElem_mem hOriginal)
      have hLayer := List.getElem?_eq_getElem hOriginal
      have hCollapsed :=
        getElem?_collapsedAfter [] layers place
      rw [hLayer, Option.map_some, List.nil_append] at hCollapsed
      have hGet :
          (expand (collapsedAfter [] layers))[place] =
            expandOne (collapsedAfter [] layers)
              (collapsedOne (layers.take place)
                layers[place]) := by
        rw [← Option.some.injEq, ← List.getElem?_eq_getElem,
          expand, List.getElem?_map, hCollapsed,
          Option.map_some]
      rw [List.get_eq_getElem, List.get_eq_getElem, hGet]
      exact
        expandOne_collapsedOne_perm hIds hDistinct hText hRef
          hLayer
  · intro place original layer hOriginal hLayer
    have hRef := hPlain _ (List.mem_of_getElem? hOriginal)
    rw [getElem?_collapsedAfter, hOriginal, Option.map_some,
      List.nil_append, Option.some.injEq] at hLayer
    rcases collapsedOne_cases hIds hText hOriginal with
      ⟨hSame, hFirst⟩ |
        ⟨earlier, hEarlier, target, id, hId, hTarget, hRefer⟩
    · rw [← hLayer, hSame, hRef]
      exact ⟨rfl, hFirst⟩
    · rw [← hLayer, hRefer, get?_refer, if_pos rfl]
      exact
        ⟨earlier, hEarlier, target, id, rfl, hId,
          hPlain target (List.mem_of_getElem? hTarget.found),
          hTarget.collapsed hText, hTarget, rfl⟩

/-
  Four layers: two that share all that can be shared, one that
  lacks a member and one where it is null.
-/
def roads : List (Bag Json) :=
  [.ofList
      [("id", .text "a"), ("source", .text "s"),
        ("type", .text "line")],
    .ofList [("id", .text "b"), ("source", .text "s")],
    .ofList
      [("type", .text "line"), ("source", .text "s"),
        ("id", .text "c"), ("metadata", .null)],
    .ofList
      [("id", .text "d"), ("source", .text "s"),
        ("type", .null)]]

theorem expand_collapse_roads :
    (roads.map id?).Nodup ∧
      ∃ collapsed,
        (collapse roads :
            Traced CompileError (List (Bag Json))).outcome =
          .ok collapsed ∧
          collapsed.map (fun layer => layer.get? "ref") =
            [none, none, some (.text "a"), none] ∧
          List.Forall₂
            (fun expanded original =>
              expanded.entries.Perm original.entries)
            (expand collapsed) roads := by
  have hDistinct : (roads.map id?).Nodup := by
    decide
  have hIds :
      ∀ l ∈ roads, ∃ s, l.get? "id" = some (.text s) := by
    intro l hMem
    simp only [roads, List.mem_cons, List.not_mem_nil,
      or_false] at hMem
    rcases hMem with rfl | rfl | rfl | rfl
    all_goals exact ⟨_, rfl⟩
  have hPlain : ∀ l ∈ roads, l.get? "ref" = none := by
    intro l hMem
    simp only [roads, List.mem_cons, List.not_mem_nil,
      or_false] at hMem
    rcases hMem with rfl | rfl | rfl | rfl
    all_goals rfl
  have hText :
      ∀ a ∈ roads, ∀ b ∈ roads,
        sharedText a = sharedText b → shared a = shared b := by
    intro a ha b hb
    simp only [roads, List.mem_cons, List.not_mem_nil,
      or_false] at ha hb
    rcases ha with rfl | rfl | rfl | rfl
    all_goals rcases hb with rfl | rfl | rfl | rfl
    all_goals
      first
        | exact fun _ => rfl
        | exact fun hSame => absurd hSame (by decide)
  rcases expand_collapse (ε := CompileError) hIds hDistinct
      hPlain hText with
    ⟨collapsed, hOutcome, hExpand, _⟩
  refine ⟨hDistinct, collapsed, hOutcome, ?_, hExpand⟩
  cases hOutcome
  rfl

end Reference

end MapStyle
