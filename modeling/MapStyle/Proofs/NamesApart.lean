import MapStyle.Proofs.Agreement

/-
  The names of properties in reachable stylesheets. They hold
  no hyphens, also where they wait in a cascade; so no two of
  a layer are written under one name, and each property comes
  into the written layer with its own value.

  Key definitions include:
    * `Layer.Parts.all`

  Main statements:
    * `Spelling.isKept_iff`
    * `Layer.Kept.hyphenated_inj`
    * `Layer.Kept.all_of_gathered`
    * `Layer.Reachable.names_apart`
-/

namespace MapStyle

------------------------------------------------------------
-- Spelling
------------------------------------------------------------

/- The kept names are those without a hyphen. -/
theorem Spelling.isKept_iff {name : String} :
    IsKept name ↔ '-' ∉ name.toList := by
  constructor
  · intro hKept
    rw [← hKept]
    exact not_mem_underscored name
  · exact replace_eq_self '_'

/- Both spellings of a property have one class. -/
theorem Property.classify?_hyphenated (name : String) :
    classify? (Spelling.hyphenated name) = classify? name := by
  unfold classify?
  rw [Spelling.underscored_hyphenated]

namespace Layer

------------------------------------------------------------
-- Written names
------------------------------------------------------------

variable {layer : Layer} {parts : Parts}

theorem Kept.hyphenated_inj
    (h : layer.Kept)
    {key other : String}
    (hKey : key ∈ layer.properties.keys)
    (hOther : other ∈ layer.properties.keys)
    (hSame :
      Spelling.hyphenated key = Spelling.hyphenated other) :
    key = other :=
  (h.properties key hKey).eq_of_hyphenated_eq
    (h.properties other hOther) hSame

/- The names of the bounds of a zoom. -/
def boundNames : List String :=
  ["minzoom", "maxzoom"]

/- No property is written under the name of a bound. -/
theorem hyphenated_not_mem_boundNames
    {key : String}
    {cls : PropertyClass}
    (h : Property.classify? key = some cls) :
    Spelling.hyphenated key ∉ boundNames := by
  have hUnknown :
      ∀ name ∈ boundNames, Property.classify? name = none := by
    decide +kernel
  intro hBound
  have hNone := hUnknown _ hBound
  rw [Property.classify?_hyphenated, h] at hNone
  cases hNone

/- The members of all parts of a layer. -/
def Parts.all (parts : Parts) : List (String × Json) :=
  parts.layout.entries ++ parts.paint.entries
    ++ parts.fields.entries

/- What is gathered are all properties, each with its value. -/
theorem Kept.all_of_gathered
    (h : layer.Kept)
    (hParts :
      Gathered layer.properties.entries Parts.empty parts) :
    parts.all.Perm
      ((layer.properties.entries.filter
        fun entry => entry.1 ≠ "zoom").map member) := by
  rcases h.entries_of_gathered hParts with
    ⟨hLayout, hPaint, hFields⟩
  unfold Parts.all
  rw [hLayout, hPaint, hFields]
  apply perm_membersOf
  rintro ⟨key, hKey, hZoom, hUnknown⟩
  rcases List.mem_map.mp hKey with ⟨entry, hEntry, rfl⟩
  exact hParts.known entry hEntry hZoom hUnknown

/- Nor does a property take the place of a bound of the zoom. -/
theorem Kept.names_nodup
    (h : layer.Kept)
    (hParts :
      Gathered layer.properties.entries Parts.empty parts) :
    (parts.all.map Prod.fst ++ boundNames).Nodup := by
  have hPerm := (h.all_of_gathered hParts).map Prod.fst
  have hBounds : boundNames.Nodup := by decide
  refine List.nodup_append.mpr
    ⟨hPerm.nodup_iff.mpr (h.members_nodup _), hBounds, ?_⟩
  rintro name hName _ hBound rfl
  rcases List.mem_map.mp (hPerm.mem_iff.mp hName) with
    ⟨_, hWritten, rfl⟩
  rcases List.mem_map.mp hWritten with ⟨entry, hEntry, rfl⟩
  rcases List.mem_filter.mp hEntry with ⟨hIn, hZoom⟩
  cases hClass : Property.classify? entry.1 with
  | none =>
      exact hParts.known entry hIn (of_decide_eq_true hZoom)
        hClass
  | some cls =>
      exact hyphenated_not_mem_boundNames hClass hBound

/-
  The properties of a reachable layer, and the overrides that
  wait in its cascades, have names without hyphens, and the
  layer has its own name among them. Hence no two properties
  are written alike: when the layer is written, its parts hold
  every property but the zoom once, under its own name and
  with its own value, and the bounds of the zoom have names
  besides.
-/
theorem Reachable.names_apart
    (h : layer.Reachable) :
    (∀ key ∈ layer.properties.keys, '-' ∉ key.toList) ∧
      (∀ cascade ∈ layer.cascades,
        ∀ key ∈ cascade.overrides.keys, '-' ∉ key.toList) ∧
      "id" ∈ layer.properties.keys ∧
      (∀ key ∈ layer.properties.keys,
        ∀ other ∈ layer.properties.keys,
          Spelling.hyphenated key = Spelling.hyphenated other →
            key = other) ∧
      ∀ parts,
        gather layer.id Parts.empty layer.properties.entries =
            .ok parts →
          layer.write? = .ok (parts.written? layer) ∧
            parts.all.Perm
              ((layer.properties.entries.filter
                fun entry => entry.1 ≠ "zoom").map member) ∧
            (parts.all.map Prod.fst ++ boundNames).Nodup := by
  have hKept := preserved_kept.reachable h
  refine ⟨?_, ?_, preserved_isNamed.reachable h, ?_, ?_⟩
  · intro key hKey
    exact Spelling.isKept_iff.mp (hKept.properties key hKey)
  · intro cascade hCascade key hKey
    exact
      Spelling.isKept_iff.mp
        (hKept.overrides cascade hCascade key hKey)
  · intro key hKey other hOther
    exact hKept.hyphenated_inj hKey hOther
  · intro parts hGather
    have hParts := gathered_of_gather hGather
    refine ⟨?_, hKept.all_of_gathered hParts,
      hKept.names_nodup hParts⟩
    rw [write?_eq_map, hGather]
    rfl

/- Options in both spellings, one property in either. -/
def mixedOptions : List (String × Value) :=
  [("line-width", .int 1), ("line_cap", .text "round"),
    ("line_width", .int 2), ("zoom", .int 7)]

/- A layer with these options, in the middle of a cascade. -/
def mixedRoads : Layer :=
  { create "roads" mixedOptions .empty with
    active := Expression.condition? [.expr (.get "bridge")] }

/- It takes an override with a hyphen in its name. -/
def bridgedRoads : Layer :=
  { mixedRoads with
    cascades :=
      [⟨.get "bridge",
        (Bag.empty : Bag Value).insert "line_color"
          (.text "red")⟩] }

theorem reachable_bridgedRoads : bridgedRoads.Reachable := by
  have hSet :
      mixedRoads.set "line-color" (.text "red") =
        .ok bridgedRoads := by
    have hName :
        Spelling.underscored "line-color" = "line_color" := by
      decide
    unfold set
    rw [hName]
    rfl
  have hCreated :
      AtWork (create "roads" mixedOptions .empty) .empty :=
    .create .empty "roads" mixedOptions
  have hActive : AtWork mixedRoads .empty :=
    .cascade hCreated [.expr (.get "bridge")]
  exact
    ⟨bridgedRoads, .empty, .works hActive (.set .empty hSet),
      Or.inl rfl⟩

/- The width is one property, and written once. -/
theorem Reachable.names_apart_bridgedRoads :
    bridgedRoads.Reachable ∧
      bridgedRoads.properties.keys =
        ["line_width", "line_cap", "zoom", "id"] ∧
      ∃ parts,
        gather bridgedRoads.id Parts.empty
            bridgedRoads.properties.entries =
          .ok parts ∧
          bridgedRoads.write? =
            .ok (parts.written? bridgedRoads) ∧
          parts.all.map Prod.fst =
            ["line-cap", "line-width", "id"] ∧
          (parts.all.map Prod.fst ++ boundNames).Nodup ∧
          ∀ cascade ∈ bridgedRoads.cascades,
            ∀ key ∈ cascade.overrides.keys,
              '-' ∉ key.toList := by
  have hReach := reachable_bridgedRoads
  rcases hReach.names_apart with
    ⟨_, hOverrides, _, _, hWritten⟩
  have hNames :
      (gather bridgedRoads.id Parts.empty
          bridgedRoads.properties.entries).toOption.map
            (fun parts => parts.all.map Prod.fst) =
        some ["line-cap", "line-width", "id"] := by
    decide +kernel
  cases hGather :
      gather bridgedRoads.id Parts.empty
        bridgedRoads.properties.entries with
  | error e =>
      rw [hGather] at hNames
      cases hNames
  | ok parts =>
      rw [hGather] at hNames
      rcases hWritten parts hGather with ⟨hWrite, _, hApart⟩
      exact
        ⟨hReach, by decide +kernel, parts, rfl, hWrite,
          Option.some.inj hNames, hApart, hOverrides⟩

end Layer

end MapStyle
