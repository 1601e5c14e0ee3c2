import MapStyle.Proofs.Assignment

/-
  What a derived layer takes over. A layer is sourced when the
  fallback of its source has nothing left to do; layers are
  created so, and stay so whatever statements assign. What is
  derived from a sourced layer has its properties, with
  nothing but the name replaced.

  Main statements:
    * `Layer.Sourced`
    * `Layer.create_sourced`
    * `Layer.derive_eq`
    * `Layer.Sourced.set`
    * `Layer.Sourced.refine_child`
-/

namespace MapStyle

namespace Layer

------------------------------------------------------------
-- Single properties
------------------------------------------------------------

/- A property that is written leaves the others alone. -/
theorem has_put_of_ne
    (layer : Layer)
    {key other : String}
    (value : Value)
    (h : other ≠ key) :
    (layer.put key value).has other = layer.has other := by
  unfold has put
  rw [Bag.get?_insert, if_neg h]

theorem has_put_text
    (layer : Layer)
    (key text : String) :
    (layer.put key (.text text)).has key = true := by
  unfold has put
  rw [Bag.get?_insert, if_pos rfl]
  rfl

theorem source?_put_of_ne
    (layer : Layer)
    {key : String}
    (value : Value)
    (h : "source" ≠ key) :
    (layer.put key value).source? = layer.source? := by
  unfold source? put
  rw [Bag.get?_insert, if_neg h]

------------------------------------------------------------
-- The fallback of the source
------------------------------------------------------------

/- There is a source, or none to fall back to. -/
def HasSource
    (layer : Layer)
    (sources : Sources) : Prop :=
  layer.has "source" = true ∨ sources.default? = none

/- There is a source layer, or no vector source to have one. -/
def HasSourceLayer
    (layer : Layer)
    (sources : Sources) : Prop :=
  layer.has "source_layer" = true ∨
    ∀ name,
      layer.source? = some name →
        sources.isVector name = false

/- After the fallback there is a source, if there can be one. -/
theorem withSource_hasSource
    (layer : Layer)
    (sources : Sources) :
    (layer.withSource sources).HasSource sources := by
  unfold withSource
  split
  · next hSource => exact Or.inl hSource
  · split
    · next name hDefault =>
        exact Or.inl (has_put_text layer "source" name)
    · next hDefault => exact Or.inr hDefault

/- A fallback that has been made is not made again. -/
theorem withSource_eq_self
    {layer : Layer}
    {sources : Sources}
    (h : layer.HasSource sources) :
    layer.withSource sources = layer := by
  unfold withSource
  split
  · rfl
  · next hSource =>
      rcases h with hHas | hDefault
      · exact absurd hHas hSource
      · rw [hDefault]

theorem withSourceLayer_hasSourceLayer
    (layer : Layer)
    (id : String)
    (sources : Sources) :
    (layer.withSourceLayer id sources).HasSourceLayer
      sources := by
  unfold withSourceLayer
  split
  · next hLayer => exact Or.inl hLayer
  · split
    · next name hName =>
        split
        · exact Or.inl (has_put_text layer "source_layer" id)
        · next hVector =>
            refine Or.inr ?_
            intro other hOther
            rw [hName] at hOther
            cases hOther
            exact Bool.eq_false_iff.mpr hVector
    · next hName =>
        refine Or.inr ?_
        intro other hOther
        rw [hName] at hOther
        cases hOther

theorem withSourceLayer_eq_self
    {layer : Layer}
    {sources : Sources}
    (id : String)
    (h : layer.HasSourceLayer sources) :
    layer.withSourceLayer id sources = layer := by
  unfold withSourceLayer
  split
  · rfl
  · next hLayer =>
      rcases h with hHas | hNone
      · exact absurd hHas hLayer
      · split
        · next name hName => simp [hNone name hName]
        · rfl

/- The second fallback does not undo the first. -/
theorem withSourceLayer_hasSource
    {layer : Layer}
    {sources : Sources}
    (id : String)
    (h : layer.HasSource sources) :
    (layer.withSourceLayer id sources).HasSource sources := by
  have hPut :
      (layer.put "source_layer" (.text id)).HasSource
        sources := by
    unfold HasSource
    rw [has_put_of_ne layer _ (by decide)]
    exact h
  unfold withSourceLayer
  split
  · exact h
  · split
    · split
      · exact hPut
      · exact h
    · exact h

/- The fallbacks write one property each, and nothing else. -/
theorem withSource_cases
    (layer : Layer)
    (sources : Sources) :
    layer.withSource sources = layer ∨
      ∃ value,
        layer.withSource sources = layer.put "source" value := by
  unfold withSource
  split
  · exact Or.inl rfl
  · split
    · exact Or.inr ⟨_, rfl⟩
    · exact Or.inl rfl

theorem withSourceLayer_cases
    (layer : Layer)
    (id : String)
    (sources : Sources) :
    layer.withSourceLayer id sources = layer ∨
      ∃ value,
        layer.withSourceLayer id sources =
          layer.put "source_layer" value := by
  unfold withSourceLayer
  split
  · exact Or.inl rfl
  · split
    · split
      · exact Or.inr ⟨_, rfl⟩
      · exact Or.inl rfl
    · exact Or.inl rfl

------------------------------------------------------------
-- Sourced layers
------------------------------------------------------------

/-
  A layer whose source is settled, whose names are kept, and
  whose cascades override nothing but assignable properties.
-/
structure Sourced
    (sources : Sources)
    (layer : Layer) : Prop where
  kept :
    ∀ key ∈ layer.properties.keys, Spelling.IsKept key
  hasSource : layer.HasSource sources
  hasSourceLayer : layer.HasSourceLayer sources
  overrides :
    ∀ cascade ∈ layer.cascades,
      ∀ key ∈ cascade.overrides.keys,
        Property.IsAssignable key

variable {sources : Sources}

/- Only the properties and the cascades matter. -/
theorem Sourced.congr
    {layer other : Layer}
    (h : layer.Sourced sources)
    (hProperties : other.properties = layer.properties)
    (hCascades : other.cascades = layer.cascades) :
    other.Sourced sources where
  kept := by
    rw [hProperties]
    exact h.kept
  hasSource := by
    have hSource := h.hasSource
    unfold HasSource has at hSource ⊢
    rw [hProperties]
    exact hSource
  hasSourceLayer := by
    have hLayer := h.hasSourceLayer
    unfold HasSourceLayer has source? at hLayer ⊢
    rw [hProperties]
    exact hLayer
  overrides := by
    rw [hCascades]
    exact h.overrides

theorem Sourced.withActive
    {layer : Layer}
    (h : layer.Sourced sources)
    (condition : Option Expression) :
    Layer.Sourced sources { layer with active := condition } :=
  h.congr rfl rfl

/- Writing any other property leaves the source settled. -/
theorem Sourced.put
    {layer : Layer}
    (h : layer.Sourced sources)
    {key : String}
    (value : Value)
    (hKept : Spelling.IsKept key)
    (hSource : "source" ≠ key)
    (hSourceLayer : "source_layer" ≠ key) :
    (layer.put key value).Sourced sources where
  kept := by
    intro other hOther
    rcases (Bag.mem_keys_insert _ _ _ _).mp hOther with
      hOld | rfl
    · exact h.kept other hOld
    · exact hKept
  hasSource := by
    unfold HasSource
    rw [has_put_of_ne layer value hSource]
    exact h.hasSource
  hasSourceLayer := by
    unfold HasSourceLayer
    rw [has_put_of_ne layer value hSourceLayer,
      source?_put_of_ne layer value hSource]
    exact h.hasSourceLayer
  overrides := h.overrides

/-
  Neither source nor source layer can be assigned by a
  statement.
-/
theorem Sourced.put_assignable
    {layer : Layer}
    (h : layer.Sourced sources)
    {key : String}
    (value : Value)
    (hKey : Property.IsAssignable key) :
    (layer.put key value).Sourced sources := by
  apply h.put value hKey.kept
  · rintro rfl
    exact hKey.not_mem_hidden (by decide)
  · rintro rfl
    exact hKey.not_mem_hidden (by decide)

/- Assignments of assignable properties keep layers sourced. -/
theorem Sourced.set
    {layer next : Layer}
    (h : layer.Sourced sources)
    {name : String}
    {value : Value}
    (hName : Property.IsAssignable (Spelling.underscored name))
    (hSet : layer.set name value = .ok next) :
    next.Sourced sources := by
  rcases set_cases hSet with
    ⟨condition, _, rfl⟩ | ⟨settled, _, _, rfl⟩
  · exact
      { kept := h.kept
        hasSource := h.hasSource
        hasSourceLayer := h.hasSourceLayer
        overrides := by
          intro cascade hCascade key hKey
          rcases mem_overrides_of_mem_record hCascade hKey with
            rfl | ⟨old, hOld, hIn⟩
          · exact hName
          · exact h.overrides old hOld key hIn }
  · exact (h.put_assignable value hName).congr rfl rfl

------------------------------------------------------------
-- Creation and derivation
------------------------------------------------------------

/- The fallbacks write under their own names alone. -/
theorem mem_keys_withSource
    {layer : Layer}
    {key : String}
    (h : key ∈ (layer.withSource sources).properties.keys) :
    key ∈ layer.properties.keys ∨ key = "source" := by
  unfold withSource at h
  split at h
  · exact Or.inl h
  · split at h
    · exact (Bag.mem_keys_insert _ _ _ _).mp h
    · exact Or.inl h

theorem mem_keys_withSourceLayer
    {layer : Layer}
    {id key : String}
    (h :
      key ∈
        (layer.withSourceLayer id sources).properties.keys) :
    key ∈ layer.properties.keys ∨ key = "source_layer" := by
  unfold withSourceLayer at h
  split at h
  · exact Or.inl h
  · split at h
    · split at h
      · exact (Bag.mem_keys_insert _ _ _ _).mp h
      · exact Or.inl h
    · exact Or.inl h

/- The names of a new layer: its own and those of its options. -/
theorem mem_keys_create
    {id key : String}
    {options : List (String × Value)}
    (h : key ∈ (create id options sources).properties.keys) :
    key ∈ options.map (fun o => Spelling.underscored o.1) ∨
      key ∈ ["id", "source", "source_layer"] := by
  rcases mem_keys_withSourceLayer h with hSourced | rfl
  · rcases mem_keys_withSource hSourced with hNamed | rfl
    · rcases (Bag.mem_keys_insert _ _ _ _).mp hNamed with
        hOption | rfl
      · rw [Bag.mem_keys_ofList, List.map_map] at hOption
        exact Or.inl hOption
      · exact Or.inr (by simp)
    · exact Or.inr (by simp)
  · exact Or.inr (by simp)

theorem mem_keys_put
    {layer : Layer}
    {key : String}
    (h : key ∈ layer.properties.keys)
    (name : String)
    (value : Value) :
    key ∈ (layer.put name value).properties.keys :=
  (Bag.mem_keys_insert _ _ _ _).mpr (Or.inl h)

theorem mem_keys_withSource_of_mem
    {layer : Layer}
    {key : String}
    (h : key ∈ layer.properties.keys) :
    key ∈ (layer.withSource sources).properties.keys := by
  unfold withSource
  split
  · exact h
  · split
    · exact mem_keys_put h _ _
    · exact h

theorem mem_keys_withSourceLayer_of_mem
    {layer : Layer}
    {key : String}
    (h : key ∈ layer.properties.keys)
    (id : String) :
    key ∈
      (layer.withSourceLayer id sources).properties.keys := by
  unfold withSourceLayer
  split
  · exact h
  · split
    · split
      · exact mem_keys_put h _ _
      · exact h
    · exact h

/- The options of a new layer are among its properties. -/
theorem mem_keys_create_of_mem
    {key : String}
    {options : List (String × Value)}
    (id : String)
    (h :
      key ∈ options.map fun o => Spelling.underscored o.1) :
    key ∈ (create id options sources).properties.keys := by
  apply mem_keys_withSourceLayer_of_mem
  apply mem_keys_withSource_of_mem
  apply (Bag.mem_keys_insert _ _ _ _).mpr
  rw [Bag.mem_keys_ofList, List.map_map]
  exact Or.inl h

/- And they write properties, nothing else of a layer. -/
theorem exists_withSource_eq
    (properties : Bag Value)
    (sources : Sources) :
    ∃ sourced,
      (ofProperties properties).withSource sources =
        ofProperties sourced := by
  unfold withSource
  split
  · exact ⟨_, rfl⟩
  · split
    · exact ⟨_, rfl⟩
    · exact ⟨_, rfl⟩

theorem exists_withSourceLayer_eq
    (properties : Bag Value)
    (id : String)
    (sources : Sources) :
    ∃ sourced,
      (ofProperties properties).withSourceLayer id sources =
        ofProperties sourced := by
  unfold withSourceLayer
  split
  · exact ⟨_, rfl⟩
  · split
    · split
      · exact ⟨_, rfl⟩
      · exact ⟨_, rfl⟩
    · exact ⟨_, rfl⟩

/- A new layer has nothing but properties. -/
theorem exists_create_eq
    (id : String)
    (options : List (String × Value))
    (sources : Sources) :
    ∃ properties,
      create id options sources = ofProperties properties := by
  unfold create
  dsimp only
  generalize (Bag.ofList _).insert "id" (Value.text id) = named
  rcases exists_withSource_eq named sources with
    ⟨sourced, hSourced⟩
  rw [hSourced]
  exact exists_withSourceLayer_eq sourced id sources

theorem create_active
    (id : String)
    (options : List (String × Value))
    (sources : Sources) :
    (create id options sources).active = none := by
  rcases exists_create_eq id options sources with
    ⟨properties, hCreate⟩
  rw [hCreate]
  rfl

/- Layers are created with their source settled. -/
theorem create_sourced
    (id : String)
    (options : List (String × Value)) :
    (create id options sources).Sourced sources where
  kept := by
    intro key hKey
    rcases mem_keys_create hKey with hOption | hOwn
    · rcases List.mem_map.mp hOption with ⟨option, _, rfl⟩
      exact Spelling.isKept_underscored option.1
    · have hAll :
          ∀ name ∈ ["id", "source", "source_layer"],
            Spelling.IsKept name := by
        decide
      exact hAll key hOwn
  hasSource :=
    withSourceLayer_hasSource id (withSource_hasSource _ sources)
  hasSourceLayer :=
    withSourceLayer_hasSourceLayer _ id sources
  overrides := by
    intro cascade hCascade
    rcases exists_create_eq id options sources with
      ⟨properties, hCreate⟩
    rw [hCreate] at hCascade
    cases hCascade

/- Kept names come through the spelling of options unchanged. -/
theorem map_underscored_entries
    {properties : Bag Value}
    (h : ∀ key ∈ properties.keys, Spelling.IsKept key) :
    (properties.entries.map
      fun o => (Spelling.underscored o.1, o.2)) =
        properties.entries := by
  have hEach :
      ∀ o ∈ properties.entries,
        (Spelling.underscored o.1, o.2) = o := by
    rintro ⟨key, value⟩ hEntry
    have hKept : Spelling.underscored key = key :=
      h key (List.mem_map_of_mem hEntry)
    rw [hKept]
  exact (List.map_congr_left hEach).trans (List.map_id' _)

/-
  What is derived from a sourced layer: its properties under a
  new name, the render type that it has settled, and nothing
  else.
-/
theorem derive_eq
    {layer : Layer}
    (h : layer.Sourced sources)
    (id : String) :
    layer.derive id sources =
      { ofProperties
          (layer.properties.insert "id" (.text id)) with
        settled := layer.settled } := by
  let named :=
    ofProperties (layer.properties.insert "id" (.text id))
  have hNamed : named.Sourced sources := by
    have hPut : (layer.put "id" (.text id)).Sourced sources :=
      h.put (.text id) (by decide) (by decide) (by decide)
    exact
      { kept := hPut.kept
        hasSource := hPut.hasSource
        hasSourceLayer := hPut.hasSourceLayer
        overrides := fun _ hCascade => absurd hCascade (by
          simp [named, ofProperties]) }
  have hCreate :
      create id layer.properties.entries sources = named := by
    simp only [create, map_underscored_entries h.kept,
      Bag.ofList_entries]
    change
      (named.withSource sources).withSourceLayer id sources =
        named
    rw [withSource_eq_self hNamed.hasSource,
      withSourceLayer_eq_self id hNamed.hasSourceLayer]
  unfold derive
  rw [hCreate]

theorem derive_sourced
    (layer : Layer)
    (id : String) :
    (layer.derive id sources).Sourced sources :=
  (create_sourced id layer.properties.entries).congr rfl rfl

/- The child of a refinement is sourced if its parent is. -/
theorem Sourced.refine_child
    {layer : Layer}
    (h : layer.Sourced sources)
    (args : List Value) :
    (layer.refine args sources).child.Sourced sources := by
  have hDerived :
      ∀ id, (layer.derive id sources).Sourced sources :=
    fun id => derive_sourced layer id
  have hProperties :
      ∀ child : Layer,
        child.Sourced sources →
          ∀ filter,
            Sourced sources
              { child with
                cascades := layer.cascades
                filter := filter } := by
    intro child hChild filter
    exact
      { kept := hChild.kept
        hasSource := hChild.hasSource
        hasSourceLayer := hChild.hasSourceLayer
        overrides := h.overrides }
  unfold refine
  apply hProperties
  cases (splitZoom args).1 with
  | none => exact hDerived _
  | some zoom =>
      exact (hDerived _).put zoom (by decide) (by decide)
        (by decide)

/- The parent goes on with nothing but another count. -/
theorem Sourced.refine_parent
    {layer : Layer}
    (h : layer.Sourced sources)
    (args : List Value) :
    (layer.refine args sources).parent.Sourced sources :=
  h.congr rfl rfl

end Layer

end MapStyle
