import MapStyle.Proofs.SettledType

/-
  The parts of a written layer beside the fields that options
  may name alike. A field `layout` or `paint` among the
  properties is written after the part of this name has been
  put together, and replaces it.

  Key definitions include:
    * `Layer.IsPlainField`
    * `Layer.given?`
    * `Layer.part?`
    * `Layer.ShownIn`

  Main statements:
    * `Layer.get?_overlay_field`
    * `Layer.Kept.get?_part_of_write?`
    * `Layer.Reachable.shownIn_part_iff`
-/

namespace MapStyle

namespace Layer

------------------------------------------------------------
-- Fields
------------------------------------------------------------

/-
  A field that is written under its own name, and as nothing
  but its lowered value.
-/
def IsPlainField (name : String) : Prop :=
  isOf fieldClasses (name, .null) = true ∧
    '-' ∉ name.toList ∧
      Spelling.hyphenated name = name ∧
        isColorName name = false

instance (name : String) : Decidable (IsPlainField name) := by
  unfold IsPlainField
  infer_instance

variable {name : String}

theorem IsPlainField.member_eq
    (h : IsPlainField name)
    (value : Value) :
    member (name, value) = (name, value.lower) := by
  rcases h with ⟨_, _, hName, hColor⟩
  unfold member writeProperty
  rw [hName, hColor]
  split
  · rw [if_neg]
    simp
  · rfl

theorem IsPlainField.member_fst_ne
    (h : IsPlainField name)
    {entry : String × Value}
    (hEntry : entry.1 ≠ name) :
    (member entry).1 ≠ name := by
  intro hName
  apply hEntry
  exact Spelling.eq_of_replace_eq h.2.1 hName

theorem membersAmong_cons
    (classes : List PropertyClass)
    (entry : String × Value)
    (rest : List (String × Value)) :
    membersAmong classes (entry :: rest) =
      if isOf classes entry then
        member entry :: membersAmong classes rest
      else
        membersAmong classes rest := by
  unfold membersAmong
  rw [List.filter_cons]
  split
  · rw [List.map_cons]
  · rfl

/- A plain field among the properties is one of the fields. -/
theorem get?_overlay_field
    (hName : IsPlainField name)
    (written : Bag Json)
    {entries : List (String × Value)}
    (h : (entries.map Prod.fst).Nodup) :
    (written.overlay (membersAmong fieldClasses entries)).get?
        name =
      ((Entries.find? name entries).map Value.lower).or
        (written.get? name) := by
  induction entries generalizing written with
  | nil => rfl
  | cons entry rest ih =>
      rcases entry with ⟨key, value⟩
      rw [List.map_cons, List.nodup_cons] at h
      rcases h with ⟨hNew, hRest⟩
      rw [membersAmong_cons, Entries.find?]
      by_cases hKey : key = name
      · subst hKey
        have hNone : Entries.find? key rest = none := by
          rw [← Option.not_isSome_iff_eq_none,
            Entries.find?_isSome_iff]
          exact hNew
        have hField : isOf fieldClasses (key, value) = true :=
          hName.1
        rw [if_pos hField, if_pos rfl, hName.member_eq,
          Bag.overlay_cons, ih _ hRest, hNone,
          Bag.get?_insert, if_pos rfl]
        rfl
      · have hOther : (member (key, value)).1 ≠ name :=
          hName.member_fst_ne hKey
        rw [if_neg hKey]
        split
        · rw [Bag.overlay_cons, ih _ hRest, Bag.get?_insert,
            if_neg hOther.symm]
        · exact ih _ hRest

/- What a property of a name is lowered to, if there is one. -/
def given?
    (layer : Layer)
    (name : String) : Option Json :=
  (layer.properties.get? name).map Value.lower

variable {layer : Layer}

/- Among the gathered parts, a plain field is as it is given. -/
theorem Gathered.get?_field
    {parts : Parts}
    (hParts :
      Gathered layer.properties.entries Parts.empty parts)
    (hName : IsPlainField name) :
    Entries.find? name parts.fields.entries =
      layer.given? name := by
  have hFields :
      parts.fields.get? name = layer.given? name := by
    rw [hParts.fields]
    exact
      (get?_overlay_field hName Parts.empty.fields
        layer.properties.keys_nodup).trans Option.or_none
  exact hFields

------------------------------------------------------------
-- Parts
------------------------------------------------------------

/- The names of the parts, and the class that goes into each. -/
def partClasses : List (String × PropertyClass) :=
  [("layout", .layout), ("paint", .paint)]

/- The properties of a class, put together unless none is. -/
def part?
    (layer : Layer)
    (cls : PropertyClass) : Option Json :=
  if (layer.membersOf [cls]).isEmpty then
    none
  else
    some (.object (layer.membersOf [cls]))

theorem partMember_eq
    (name : String)
    (cls : PropertyClass) :
    partMember name (layer.membersOf [cls]) =
      optionalMember name (layer.part? cls) := by
  unfold partMember part?
  by_cases hEmpty : (layer.membersOf [cls]).isEmpty
  · rw [if_pos hEmpty, if_pos hEmpty]
    rfl
  · rw [if_neg hEmpty, if_neg hEmpty]
    rfl

theorem isPlainField_part :
    ∀ part ∈ partClasses, IsPlainField part.1 := by
  decide +kernel

theorem part_ne_closing :
    ∀ part ∈ partClasses,
      ∀ name ∈ ["type", "filter", "minzoom", "maxzoom"],
        part.1 ≠ name := by
  decide

/-
  The member with the name of a part: a field of this name, or
  else the part itself.
-/
theorem Kept.get?_part_of_write?
    {out : Bag Json}
    (h : layer.Kept)
    (hWrite : layer.write? = .ok (some out))
    {part : String × PropertyClass}
    (hPart : part ∈ partClasses) :
    out.get? part.1 =
      (layer.given? part.1).or (layer.part? part.2) := by
  rcases exists_gathered_of_write? hWrite with
    ⟨parts, hParts, rfl⟩
  rcases h.entries_of_gathered hParts with
    ⟨hLayout, hPaint, _⟩
  have hBoth :
      ((Bag.empty.overlay
            (optionalMember "layout" (layer.part? .layout))).overlay
          (optionalMember "paint" (layer.part? .paint))).get?
          part.1 =
        layer.part? part.2 := by
    simp only [partClasses, List.mem_cons, List.not_mem_nil,
      or_false] at hPart
    rcases hPart with rfl | rfl
    · rw [get?_overlay_optionalMember_of_ne _ _ (by decide),
        get?_overlay_optionalMember_self]
      exact Option.or_none
    · rw [get?_overlay_optionalMember_self,
        get?_overlay_optionalMember_of_ne _ _ (by decide)]
      exact Option.or_none
  have hClosing := part_ne_closing part hPart
  rw [Parts.members_eq_overlay, Bag.overlay_append,
    Bag.overlay_append, Bag.overlay_append, Bag.overlay_append,
    Bag.overlay_append, Bag.overlay_append,
    get?_overlay_optionalMember_of_ne _ _
      (hClosing "maxzoom" (by decide)),
    get?_overlay_optionalMember_of_ne _ _
      (hClosing "minzoom" (by decide)),
    get?_overlay_optionalMember_of_ne _ _
      (hClosing "filter" (by decide)),
    get?_overlay_optionalMember_of_ne _ _
      (hClosing "type" (by decide)),
    Bag.get?_overlay _ parts.fields.keys_nodup,
    hParts.get?_field (isPlainField_part part hPart), hLayout,
    hPaint, partMember_eq, partMember_eq, hBoth]

/-
  All properties of a class stand in an object, each lowered
  under the name with which it is written out.
-/
def ShownIn
    (layer : Layer)
    (cls : PropertyClass)
    (json? : Option Json) : Prop :=
  ∀ key value,
    layer.properties.get? key = some value →
      Property.classify? key = some cls →
        ∃ members,
          json? = some (.object members) ∧
            Entries.find? (Spelling.hyphenated key) members =
              some
                (writeProperty (Spelling.hyphenated key) value)

/- What goes into a part is decided by the class alone. -/
theorem isOf_part :
    ∀ part ∈ partClasses,
      ∀ entry : String × Value,
        isOf [part.2] entry = true ↔
          Property.classify? entry.1 = some part.2 := by
  have hZoom :
      ∀ part ∈ partClasses,
        Property.classify? "zoom" ≠ some part.2 := by
    decide +kernel
  intro part hPart entry
  rw [isOf_iff]
  constructor
  · rintro ⟨_, cls, hCls, hClass⟩
    rw [List.mem_singleton.mp hCls] at hClass
    exact hClass
  · intro hClass
    refine ⟨?_, part.2, List.mem_singleton_self _, hClass⟩
    intro hName
    rw [hName] at hClass
    exact hZoom part hPart hClass

/- The part of a class has all properties of the class. -/
theorem Kept.shownIn_part?
    (h : layer.Kept)
    {part : String × PropertyClass}
    (hPart : part ∈ partClasses) :
    layer.ShownIn part.2 (layer.part? part.2) := by
  intro key value hGet hClass
  have hEntry :
      (key, value) ∈ layer.properties.entries :=
    (Entries.find?_eq_some_iff layer.properties.keys_nodup key
      value).mp hGet
  have hOf : isOf [part.2] (key, value) = true :=
    (isOf_part part hPart _).mpr hClass
  have hMember :
      member (key, value) ∈ layer.membersOf [part.2] :=
    List.mem_map_of_mem (List.mem_filter.mpr ⟨hEntry, hOf⟩)
  have hSome :
      ¬ (layer.membersOf [part.2]).isEmpty = true := by
    rw [List.isEmpty_iff]
    exact List.ne_nil_of_mem hMember
  refine ⟨layer.membersOf [part.2], ?_, ?_⟩
  · unfold part?
    rw [if_neg hSome]
  · exact
      (Entries.find?_eq_some_iff (h.members_nodup _) _ _).mpr
        hMember

/-
  Where the properties of a class are to be found in a written
  layer that is reachable: in the part, as long as no field
  has its name. A field replaces the part, and then they are
  there only if the field itself holds all of them.
-/
theorem Reachable.shownIn_part_iff
    {out : Bag Json}
    (h : layer.Reachable)
    (hWrite : layer.write? = .ok (some out)) :
    ∀ part ∈ partClasses,
      out.get? part.1 =
          (layer.given? part.1).or (layer.part? part.2) ∧
        (layer.ShownIn part.2 (out.get? part.1) ↔
          layer.properties.get? part.1 = none ∨
            layer.ShownIn part.2 (layer.given? part.1)) := by
  have hKept := preserved_kept.reachable h
  intro part hPart
  have hGet := hKept.get?_part_of_write? hWrite hPart
  refine ⟨hGet, ?_⟩
  rw [hGet]
  unfold given?
  cases layer.properties.get? part.1 with
  | none =>
      constructor
      · intro _
        exact Or.inl rfl
      · intro _
        exact hKept.shownIn_part? hPart
  | some value =>
      constructor
      · intro hShown
        exact Or.inr hShown
      · rintro (hNone | hShown)
        · cases hNone
        · exact hShown

/- A layer with an option that is named like a part. -/
def overpainted : String :=
  "layer :a, paint: 1 \x7b
    line_width 2
    on \x7b line_cap :round \x7d
  \x7d"

/- Whether a layer is written with an object under a name. -/
def isObjectAt
    (layer : Layer)
    (name : String) : Option Bool :=
  match layer.write? with
  | .ok (some out) =>
      match out.get? name with
      | some (.object _) => some true
      | _ => some false
  | _ => none

/- In what is no object, no property is shown. -/
theorem exists_not_shownIn
    {key : String}
    {cls : PropertyClass}
    (h : layer.isObjectAt name = some false)
    (hKey : layer.properties.contains key = true)
    (hClass : Property.classify? key = some cls) :
    ∃ out,
      layer.write? = .ok (some out) ∧
        ¬ layer.ShownIn cls (out.get? name) := by
  unfold isObjectAt at h
  split at h
  · next out hWrite =>
      refine ⟨out, hWrite, ?_⟩
      intro hShown
      rcases Option.isSome_iff_exists.mp hKey with
        ⟨value, hValue⟩
      rcases hShown key value hValue hClass with
        ⟨members, hMembers, _⟩
      rw [hMembers] at h
      cases h
  · cases h

/- A layer of a text that is loaded on its own is reachable. -/
theorem exists_load_of_getElem?
    {source : String}
    {index : Nat}
    (h :
      (Sheet.layersOf? source).bind (·[index]?) =
        some layer) :
    ∃ t,
      Sheet.load (Texts.ofList []) source Document.fresh =
          .ok () t ∧
        t.sheet.layers[index]? = some layer ∧
        layer.Reachable := by
  rcases Option.bind_eq_some_iff.mp h with
    ⟨layers, hLayers, hIndex⟩
  rcases Sheet.layersOf?_eq_some.mp hLayers with
    ⟨t, hLoad, rfl⟩
  have hSheet := Sheet.reachable_of_load .empty hLoad
  exact
    ⟨t, hLoad, hIndex,
      reachable_of_mem hSheet (List.mem_of_getElem? hIndex)⟩

/-
  The child has the option from its parent, and its width is
  lost; the cap stands in the layout.
-/
theorem Reachable.shownIn_part_iff_overpainted :
    ∃ t layer out,
      Sheet.load (Texts.ofList []) overpainted Document.fresh =
          .ok () t ∧
        t.sheet.layers[1]? = some layer ∧
        layer.Reachable ∧
        layer.write? = .ok (some out) ∧
        layer.ShownIn .layout (out.get? "layout") ∧
        ¬ layer.ShownIn .paint (out.get? "paint") := by
  have hCheck :
      ((Sheet.layersOf? overpainted).bind (·[1]?)).map
          (fun layer =>
            (layer.isObjectAt "paint",
              layer.properties.contains "line_width",
              (layer.properties.get? "layout").isNone)) =
        some (some false, true, true) := by
    decide +kernel
  rcases Option.map_eq_some_iff.mp hCheck with
    ⟨layer, hFound, hLayer⟩
  rcases exists_load_of_getElem? hFound with
    ⟨t, hLoad, hIndex, hReach⟩
  simp only [Prod.mk.injEq] at hLayer
  rcases hLayer with ⟨hPaint, hWidth, hLayout⟩
  have hClass :
      Property.classify? "line_width" = some .paint := by
    decide +kernel
  rcases exists_not_shownIn hPaint hWidth hClass with
    ⟨out, hWrite, hLost⟩
  have hFree : layer.properties.get? "layout" = none :=
    Option.isNone_iff_eq_none.mp hLayout
  have hParts := hReach.shownIn_part_iff hWrite
  rcases hParts ("layout", .layout) (by decide) with
    ⟨_, hLayoutIff⟩
  exact
    ⟨t, layer, out, hLoad, hIndex, hReach, hWrite,
      hLayoutIff.mpr (Or.inl hFree), hLost⟩

/- The width of the layer is replaced by the option. -/
theorem paintOption_replaces_part :
    ∃ t layer out,
      Sheet.load (Texts.ofList []) overpainted Document.fresh =
          .ok () t ∧
        t.sheet.layers[0]? = some layer ∧
        layer.Reachable ∧
        layer.write? = .ok (some out) ∧
        ¬ layer.ShownIn .paint (out.get? "paint") := by
  have hCheck :
      ((Sheet.layersOf? overpainted).bind (·[0]?)).map
          (fun layer =>
            (layer.isObjectAt "paint",
              layer.properties.contains "line_width")) =
        some (some false, true) := by
    decide +kernel
  rcases Option.map_eq_some_iff.mp hCheck with
    ⟨layer, hFound, hLayer⟩
  rcases exists_load_of_getElem? hFound with
    ⟨t, hLoad, hIndex, hReach⟩
  simp only [Prod.mk.injEq] at hLayer
  rcases hLayer with ⟨hPaint, hWidth⟩
  have hClass :
      Property.classify? "line_width" = some .paint := by
    decide +kernel
  rcases exists_not_shownIn hPaint hWidth hClass with
    ⟨out, hWrite, hLost⟩
  exact ⟨t, layer, out, hLoad, hIndex, hReach, hWrite, hLost⟩

end Layer

end MapStyle
