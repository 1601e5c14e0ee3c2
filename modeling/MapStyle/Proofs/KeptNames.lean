import MapStyle.Proofs.Inheritance
import MapStyle.Proofs.Reachable

/-
  In every reachable stylesheet the properties of layers have
  kept names, and so have the overrides that wait for their
  siblings: whatever is assigned, and in either spelling, goes
  under its kept name.

  Key definitions include:
    * `Layer.Kept`

  Main statements:
    * `Layer.preserved_kept`
    * `Stylesheet.Reachable.kept`
-/

namespace MapStyle

/- A layer whose properties and overrides have kept names. -/
structure Layer.Kept (layer : Layer) : Prop where
  properties :
    ∀ key ∈ layer.properties.keys, Spelling.IsKept key
  overrides :
    ∀ cascade ∈ layer.cascades,
      ∀ key ∈ cascade.overrides.keys, Spelling.IsKept key

namespace Layer

------------------------------------------------------------
-- Single operations
------------------------------------------------------------

theorem Kept.put
    {layer : Layer}
    (h : layer.Kept)
    {key : String}
    (value : Value)
    (hKey : Spelling.IsKept key) :
    (layer.put key value).Kept where
  properties := by
    intro other hOther
    rcases (Bag.mem_keys_insert _ _ _ _).mp hOther with
      hOld | rfl
    · exact h.properties other hOld
    · exact hKey
  overrides := h.overrides

/- Both assignments and records use the kept name. -/
theorem Kept.set
    {layer next : Layer}
    (h : layer.Kept)
    {name : String}
    {value : Value}
    (hSet : layer.set name value = .ok next) :
    next.Kept := by
  have hName := Spelling.isKept_underscored name
  rcases set_cases hSet with
    ⟨condition, _, rfl⟩ | ⟨settled, _, _, rfl⟩
  · refine ⟨h.properties, ?_⟩
    intro cascade hCascade key hKey
    rcases mem_overrides_of_mem_record hCascade hKey with
      rfl | ⟨old, hOld, hIn⟩
    · exact hName
    · exact h.overrides old hOld key hIn
  · have hPut := h.put value hName
    exact ⟨hPut.properties, hPut.overrides⟩

/- Layers are created, and derived, with kept names. -/
theorem create_kept
    (id : String)
    (options : List (String × Value))
    (sources : Sources) :
    (create id options sources).Kept where
  properties := (create_sourced id options).kept
  overrides := by
    intro cascade hCascade
    rcases exists_create_eq id options sources with
      ⟨properties, hCreate⟩
    rw [hCreate] at hCascade
    cases hCascade

theorem derive_kept
    (layer : Layer)
    (id : String)
    (sources : Sources) :
    (layer.derive id sources).Kept :=
  let hCreate := create_kept id layer.properties.entries sources
  ⟨hCreate.properties, hCreate.overrides⟩

/- The child of a refinement takes over the overrides. -/
theorem Kept.refine_child
    {layer : Layer}
    (h : layer.Kept)
    (args : List Value)
    (sources : Sources) :
    (layer.refine args sources).child.Kept where
  properties := by
    have hDerived := fun id => derive_kept layer id sources
    unfold refine
    dsimp only
    cases (splitZoom args).1 with
    | none => exact (hDerived _).properties
    | some zoom =>
        exact ((hDerived _).put zoom (by decide)).properties
  overrides := h.overrides

/- A sibling has the names of the child and the overrides. -/
theorem Kept.sibling
    {parent : Layer}
    (h : parent.Kept)
    (r : Refinement)
    (child : Layer)
    (sources : Sources)
    (index : Nat)
    {cascade : Cascade}
    (hCascade : cascade ∈ parent.cascades) :
    (r.sibling child sources index cascade).Kept where
  properties := by
    intro key hKey
    unfold Refinement.sibling at hKey
    rcases (Bag.mem_keys_overlay _ _ _).mp hKey with
      hOwn | hOverride
    · exact (derive_kept child _ sources).properties key hOwn
    · exact h.overrides cascade hCascade key hOverride
  overrides := (derive_kept child _ sources).overrides

/- Every operation keeps the names. -/
theorem preserved_kept : Preserved Kept where
  create := create_kept
  congr h hProperties _ hCascades :=
    ⟨hProperties ▸ h.properties, hCascades ▸ h.overrides⟩
  set h hSet := h.set hSet
  rename _ h := h.put _ (by decide)
  child args sources h := h.refine_child args sources
  sibling sources index h _ hCascade :=
    h.sibling _ _ sources index hCascade

end Layer

/- All layers of a reachable stylesheet have kept names. -/
theorem Stylesheet.Reachable.kept
    {sheet : Stylesheet}
    (h : sheet.Reachable) :
    ∀ layer ∈ sheet.layers, layer.Kept :=
  Layer.preserved_kept.of_mem h

end MapStyle
