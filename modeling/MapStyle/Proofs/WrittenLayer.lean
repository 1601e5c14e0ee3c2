import MapStyle.Document
import MapStyle.Proofs.KeptNames
import MapStyle.Proofs.LayerOrder

/-
  The written form of a layer, described without the loop that
  gathers it: which layers cannot be written, which have no
  effect, and the members of all others, in order.

  Key definitions include:
    * `Layer.HasUnknown`
    * `Layer.HasConflict`
    * `Layer.HasEffect`
    * `Layer.membersWith`
    * `Layer.Gathered`

  Main statements:
    * `Layer.gathered_of_gather`
    * `Layer.gather_eq_error`
    * `Layer.perm_membersOf`
    * `Layer.Kept.entries_members`
    * `Stylesheet.Reachable.write?_members`
-/

namespace MapStyle

------------------------------------------------------------
-- Properties that are written
------------------------------------------------------------

namespace Layer

/- The render type that a layout or paint property implies. -/
def impliedType? (key : String) : Option RenderType :=
  match Property.classify? key with
  | some cls =>
      if cls.impliesType then
        RenderType.ofProperty? (Spelling.hyphenated key)
      else
        none
  | none => none

/- A property other than the zoom has no known class. -/
def HasUnknown (layer : Layer) : Prop :=
  ∃ key ∈ layer.properties.keys,
    key ≠ "zoom" ∧ Property.classify? key = none

/- Two properties imply different render types. -/
def HasConflict (layer : Layer) : Prop :=
  ∃ key ∈ layer.properties.keys,
    ∃ other ∈ layer.properties.keys,
      ∃ s t,
        impliedType? key = some s ∧
          impliedType? other = some t ∧ s ≠ t

/- A property is of layout or paint. -/
def HasEffect (layer : Layer) : Prop :=
  ∃ key ∈ layer.properties.keys,
    Property.classify? key = some .layout ∨
      Property.classify? key = some .paint

/- An optional render type is the one that is implied. -/
def IsImplied
    (layer : Layer)
    (type? : Option RenderType) : Prop :=
  ∀ t,
    type? = some t ↔
      ∃ key ∈ layer.properties.keys, impliedType? key = some t

/- A property as a member of the written layer. -/
def member (entry : String × Value) : String × Json :=
  (Spelling.hyphenated entry.1,
    writeProperty (Spelling.hyphenated entry.1) entry.2)

/- Whether an entry is a property of one of some classes. -/
def isOf
    (classes : List PropertyClass)
    (entry : String × Value) : Bool :=
  entry.1 ≠ "zoom" &&
    match Property.classify? entry.1 with
    | some cls => classes.contains cls
    | none => false

theorem isOf_iff
    {classes : List PropertyClass}
    {entry : String × Value} :
    isOf classes entry = true ↔
      entry.1 ≠ "zoom" ∧
        ∃ cls ∈ classes,
          Property.classify? entry.1 = some cls := by
  unfold isOf
  cases hClass : Property.classify? entry.1 with
  | none => simp
  | some cls => simp

/- The entries of some classes as members, in their order. -/
def membersAmong
    (classes : List PropertyClass)
    (entries : List (String × Value)) : List (String × Json) :=
  (entries.filter (isOf classes)).map member

/- The properties of some classes, as members in their order. -/
def membersOf
    (layer : Layer)
    (classes : List PropertyClass) : List (String × Json) :=
  membersAmong classes layer.properties.entries

/- The classes of the members that stand beside the parts. -/
def fieldClasses : List PropertyClass :=
  [.topLevel, .hidden]

/- A part is a member unless it is empty. -/
def partMember
    (name : String)
    (part : List (String × Json)) : List (String × Json) :=
  if part.isEmpty then [] else [(name, .object part)]

/- A member that may be absent. -/
def optionalMember
    (name : String)
    (json? : Option Json) : List (String × Json) :=
  json?.toList.map fun json => (name, json)

/- The bounds of the zoom of a layer, if it has one. -/
def bounds (layer : Layer) : Option Json × Option Json :=
  match layer.properties.get? "zoom" with
  | some v => zoomBounds v
  | none => (none, none)

/- The render type that has been settled while gathering. -/
def Parts.type? (parts : Parts) : Option RenderType :=
  parts.settled.map Settled.renderType

variable {id : String}

/- Settling adds a type that is implied for the first time. -/
theorem settle_eq_ok
    {settled next : Option Settled}
    {name : String}
    (h : settle settled id name = .ok next) :
    next.map Settled.renderType =
        (settled.map Settled.renderType).or
          (RenderType.ofProperty? name) ∧
      ∀ t,
        RenderType.ofProperty? name = some t →
          next.map Settled.renderType = some t := by
  unfold settle at h
  cases hType : RenderType.ofProperty? name with
  | none =>
      rw [hType] at h
      cases h
      simp
  | some renderType =>
      rw [hType] at h
      cases settled with
      | none =>
          cases h
          simp
      | some s =>
          dsimp only at h
          split at h
          · next hSame =>
              cases h
              simp [hSame]
          · cases h

/- Settling fails where another type has been settled. -/
theorem settle_eq_error
    {settled : Option Settled}
    {name : String}
    {e : CompileError}
    (h : settle settled id name = .error e) :
    ∃ s t,
      settled.map Settled.renderType = some s ∧
        RenderType.ofProperty? name = some t ∧ s ≠ t := by
  unfold settle at h
  split at h
  · cases h
  · next t hType =>
      split at h
      · cases h
      · next s =>
          split at h
          · cases h
          · next hOther =>
              exact ⟨s.renderType, t, rfl, hType, hOther⟩

/- The type that the first property with one implies. -/
def firstImplied?
    (entries : List (String × Value)) : Option RenderType :=
  entries.findSome? fun entry => impliedType? entry.1

/-
  The properties among entries have gone into the parts, in
  their order, and the types that they imply agree.
-/
structure Gathered
    (entries : List (String × Value))
    (parts result : Parts) : Prop where
  layout :
    result.layout =
      parts.layout.overlay (membersAmong [.layout] entries)
  paint :
    result.paint =
      parts.paint.overlay (membersAmong [.paint] entries)
  fields :
    result.fields =
      parts.fields.overlay (membersAmong fieldClasses entries)
  type? : result.type? = parts.type?.or (firstImplied? entries)
  known :
    ∀ entry ∈ entries,
      entry.1 ≠ "zoom" → Property.classify? entry.1 ≠ none
  agrees :
    ∀ entry ∈ entries, ∀ t,
      impliedType? entry.1 = some t → result.type? = some t

theorem Gathered.nil (parts : Parts) :
    Gathered [] parts parts where
  layout := rfl
  paint := rfl
  fields := rfl
  type? := Option.or_none.symm
  known := by simp
  agrees := by simp

theorem membersAmong_append
    (classes : List PropertyClass)
    (first second : List (String × Value)) :
    membersAmong classes (first ++ second) =
      membersAmong classes first ++
        membersAmong classes second := by
  unfold membersAmong
  rw [List.filter_append, List.map_append]

theorem Gathered.append
    {first second : List (String × Value)}
    {parts middle result : Parts}
    (hFirst : Gathered first parts middle)
    (hSecond : Gathered second middle result) :
    Gathered (first ++ second) parts result where
  layout := by
    rw [hSecond.layout, hFirst.layout, membersAmong_append,
      Bag.overlay_append]
  paint := by
    rw [hSecond.paint, hFirst.paint, membersAmong_append,
      Bag.overlay_append]
  fields := by
    rw [hSecond.fields, hFirst.fields, membersAmong_append,
      Bag.overlay_append]
  type? := by
    unfold firstImplied?
    rw [hSecond.type?, hFirst.type?, List.findSome?_append,
      Option.or_assoc]
    rfl
  known := by
    intro entry hEntry
    rcases List.mem_append.mp hEntry with hIn | hIn
    · exact hFirst.known entry hIn
    · exact hSecond.known entry hIn
  agrees := by
    intro entry hEntry t hType
    rcases List.mem_append.mp hEntry with hIn | hIn
    · rw [hSecond.type?, hFirst.agrees entry hIn t hType]
      rfl
    · exact hSecond.agrees entry hIn t hType

/- The zoom goes into no part. -/
theorem Gathered.zoom
    (parts : Parts)
    (value : Value) :
    Gathered [("zoom", value)] parts parts where
  layout := rfl
  paint := rfl
  fields := rfl
  type? := by
    have hNone : impliedType? "zoom" = none := by
      decide +kernel
    simp [firstImplied?, hNone]
  known := by simp
  agrees := by
    have hNone : impliedType? "zoom" = none := by
      decide +kernel
    simp [hNone]

section Gathering

variable {parts next result : Parts}
variable {key : String} {value : Value}
variable {entries : List (String × Value)}

/- Put a member into the part of a class. -/
def Parts.put
    (parts : Parts)
    (cls : PropertyClass)
    (name : String)
    (json : Json) : Parts :=
  match cls with
  | .layout =>
      { parts with layout := parts.layout.insert name json }
  | .paint =>
      { parts with paint := parts.paint.insert name json }
  | _ => { parts with fields := parts.fields.insert name json }

/- What is settled after a property of a class. -/
def settledBy
    (id : String)
    (parts : Parts)
    (cls : PropertyClass)
    (name : String) : Except CompileError (Option Settled) :=
  if cls.impliesType then
    settle parts.settled id name
  else
    .ok parts.settled

/- Gathering settles a type and puts a member into a part. -/
theorem gatherOne_of_class
    {cls : PropertyClass}
    (hClass : Property.classify? key = some cls) :
    gatherOne id parts key value =
      (settledBy id parts cls (Spelling.hyphenated key)).map
        fun settled =>
          { parts.put cls (member (key, value)).1
              (member (key, value)).2 with
            settled := settled } := by
  unfold gatherOne settledBy
  rw [hClass]
  cases cls with
  | layout =>
      dsimp only [PropertyClass.impliesType]
      cases settle parts.settled id (Spelling.hyphenated key) <;>
        rfl
  | paint =>
      dsimp only [PropertyClass.impliesType]
      cases settle parts.settled id (Spelling.hyphenated key) <;>
        rfl
  | topLevel => rfl
  | hidden => rfl

theorem settledBy_eq_ok
    {cls : PropertyClass}
    {settled : Option Settled}
    (hClass : Property.classify? key = some cls)
    (h :
      settledBy id parts cls (Spelling.hyphenated key) =
        .ok settled) :
    settled.map Settled.renderType =
        parts.type?.or (impliedType? key) ∧
      ∀ t,
        impliedType? key = some t →
          settled.map Settled.renderType = some t := by
  unfold settledBy at h
  unfold impliedType?
  rw [hClass]
  dsimp only
  split at h
  · next hTyped =>
      rw [if_pos hTyped]
      exact settle_eq_ok h
  · next hUntyped =>
      rw [if_neg hUntyped]
      cases h
      exact ⟨Option.or_none.symm, by simp⟩

theorem settledBy_eq_error
    {cls : PropertyClass}
    {e : CompileError}
    (hClass : Property.classify? key = some cls)
    (h :
      settledBy id parts cls (Spelling.hyphenated key) =
        .error e) :
    ∃ s t,
      parts.type? = some s ∧ impliedType? key = some t ∧
        s ≠ t := by
  unfold settledBy at h
  unfold impliedType?
  rw [hClass]
  dsimp only
  split at h
  · next hTyped =>
      rw [if_pos hTyped]
      exact settle_eq_error h
  · cases h

/- A property of a known class goes into the part of it. -/
theorem gathered_of_gatherOne
    (hZoom : key ≠ "zoom")
    (h : gatherOne id parts key value = .ok next) :
    Gathered [(key, value)] parts next := by
  cases hClass : Property.classify? key with
  | none =>
      unfold gatherOne at h
      rw [hClass] at h
      cases h
  | some cls =>
      rw [gatherOne_of_class hClass] at h
      cases hSettled :
          settledBy id parts cls (Spelling.hyphenated key) with
      | error e =>
          rw [hSettled] at h
          cases h
      | ok settled =>
          rw [hSettled] at h
          cases h
          rcases settledBy_eq_ok hClass hSettled with
            ⟨hType, hAgrees⟩
          constructor
          · cases cls <;>
              simp [Parts.put, membersAmong, isOf, hClass, hZoom]
          · cases cls <;>
              simp [Parts.put, membersAmong, isOf, hClass, hZoom]
          · cases cls <;>
              simp [Parts.put, membersAmong, isOf, hClass, hZoom,
                fieldClasses]
          · simpa [firstImplied?, Parts.type?] using hType
          · simp [hClass]
          · simpa [Parts.type?] using hAgrees

/-
  A property cannot be gathered if its class is unknown, or if
  it implies another type than has been settled.
-/
theorem gatherOne_eq_error
    {e : CompileError}
    (h : gatherOne id parts key value = .error e) :
    Property.classify? key = none ∨
      ∃ s t,
        parts.type? = some s ∧ impliedType? key = some t ∧
          s ≠ t := by
  cases hClass : Property.classify? key with
  | none => exact Or.inl rfl
  | some cls =>
      refine Or.inr ?_
      rw [gatherOne_of_class hClass] at h
      cases hSettled :
          settledBy id parts cls (Spelling.hyphenated key) with
      | ok settled =>
          rw [hSettled] at h
          cases h
      | error found => exact settledBy_eq_error hClass hSettled

------------------------------------------------------------
-- All properties
------------------------------------------------------------

/- Gathering succeeds or fails with its first property. -/
theorem gather_cons
    (hZoom : key ≠ "zoom") :
    gather id parts ((key, value) :: entries) =
      (gatherOne id parts key value).bind
        fun more => gather id more entries := by
  rw [gather, if_neg hZoom]
  rfl

theorem gathered_of_gather
    (h : gather id parts entries = .ok result) :
    Gathered entries parts result := by
  induction entries generalizing parts with
  | nil =>
      cases h
      exact .nil _
  | cons entry rest ih =>
      rcases entry with ⟨key, value⟩
      by_cases hZoom : key = "zoom"
      · subst hZoom
        rw [gather, if_pos rfl] at h
        exact (Gathered.zoom _ value).append (ih h)
      · rw [gather_cons hZoom] at h
        cases hOne : gatherOne id parts key value with
        | error e =>
            rw [hOne] at h
            cases h
        | ok more =>
            rw [hOne] at h
            exact (gathered_of_gatherOne hZoom hOne).append (ih h)

/-
  Properties cannot be gathered if the class of one is
  unknown, or if one implies another type than has been
  settled or than a property before it implies.
-/
theorem gather_eq_error
    {e : CompileError}
    (h : gather id parts entries = .error e) :
    (∃ entry ∈ entries,
      entry.1 ≠ "zoom" ∧ Property.classify? entry.1 = none) ∨
      ∃ entry ∈ entries, ∃ s t,
        impliedType? entry.1 = some t ∧ s ≠ t ∧
          (parts.type? = some s ∨
            ∃ other ∈ entries, impliedType? other.1 = some s) := by
  induction entries generalizing parts with
  | nil => cases h
  | cons entry rest ih =>
      rcases entry with ⟨key, value⟩
      by_cases hZoom : key = "zoom"
      · subst hZoom
        rw [gather, if_pos rfl] at h
        rcases ih h with
          ⟨other, hOther, hUnknown⟩ |
          ⟨other, hOther, s, t, hType, hNe, hBefore⟩
        · exact Or.inl
            ⟨other, List.mem_cons_of_mem _ hOther, hUnknown⟩
        · refine Or.inr ⟨other, List.mem_cons_of_mem _ hOther,
            s, t, hType, hNe, hBefore.imp_right ?_⟩
          rintro ⟨found, hFound, hImplied⟩
          exact ⟨found, List.mem_cons_of_mem _ hFound, hImplied⟩
      rw [gather_cons hZoom] at h
      cases hOne : gatherOne id parts key value with
      | error found =>
          rcases gatherOne_eq_error hOne with
            hUnknown | ⟨s, t, hSettled, hType, hNe⟩
          · exact Or.inl
              ⟨(key, value), List.mem_cons_self, hZoom, hUnknown⟩
          · exact Or.inr
              ⟨(key, value), List.mem_cons_self, s, t, hType,
                hNe, Or.inl hSettled⟩
      | ok more =>
          rw [hOne] at h
          have hMore := (gathered_of_gatherOne hZoom hOne).type?
          rcases ih h with
            ⟨other, hOther, hUnknown⟩ |
            ⟨other, hOther, s, t, hType, hNe, hBefore⟩
          · exact Or.inl
              ⟨other, List.mem_cons_of_mem _ hOther, hUnknown⟩
          · refine Or.inr ⟨other, List.mem_cons_of_mem _ hOther,
              s, t, hType, hNe, ?_⟩
            rcases hBefore with
              hSettled | ⟨found, hFound, hImplied⟩
            · rw [hMore, Option.or_eq_some_iff] at hSettled
              rcases hSettled with hSettled | ⟨-, hOwn⟩
              · exact Or.inl hSettled
              · refine Or.inr
                  ⟨(key, value), List.mem_cons_self, ?_⟩
                simpa [firstImplied?] using hOwn
            · exact Or.inr
                ⟨found, List.mem_cons_of_mem _ hFound, hImplied⟩

end Gathering

/- Whether the properties of a layer can be gathered. -/
theorem exists_gather_eq_error_iff (layer : Layer) :
    (∃ e,
      gather layer.id Parts.empty layer.properties.entries =
        .error e) ↔
      layer.HasUnknown ∨ layer.HasConflict := by
  constructor
  · rintro ⟨e, hGather⟩
    rcases gather_eq_error hGather with
      ⟨entry, hEntry, hUnknown⟩ |
      ⟨entry, hEntry, s, t, hType, hNe,
        hSettled | ⟨other, hOther, hBefore⟩⟩
    · exact Or.inl
        ⟨entry.1, List.mem_map_of_mem hEntry, hUnknown⟩
    · cases hSettled
    · exact Or.inr
        ⟨other.1, List.mem_map_of_mem hOther, entry.1,
          List.mem_map_of_mem hEntry, s, t, hBefore, hType,
          hNe⟩
  · intro hFault
    cases hGather :
        gather layer.id Parts.empty layer.properties.entries with
    | error e => exact ⟨e, rfl⟩
    | ok parts =>
        have hParts := gathered_of_gather hGather
        rcases hFault with
          ⟨key, hKey, hZoom, hUnknown⟩ |
          ⟨key, hKey, other, hOther, s, t, hType, hAlso, hNe⟩
        · rcases List.mem_map.mp hKey with ⟨entry, hEntry, rfl⟩
          exact absurd hUnknown (hParts.known entry hEntry hZoom)
        · rcases List.mem_map.mp hKey with ⟨first, hFirst, rfl⟩
          rcases List.mem_map.mp hOther with
            ⟨second, hSecond, rfl⟩
          have hSame :=
            (hParts.agrees first hFirst s hType).symm.trans
              (hParts.agrees second hSecond t hAlso)
          exact absurd (Option.some.inj hSame) hNe

/- The gathered type is the one that is implied. -/
theorem isImplied_of_gathered
    {layer : Layer}
    {parts : Parts}
    (h : Gathered layer.properties.entries Parts.empty parts) :
    layer.IsImplied parts.type? := by
  intro t
  constructor
  · intro hType
    rw [h.type?] at hType
    rcases List.exists_of_findSome?_eq_some hType with
      ⟨entry, hEntry, hImplied⟩
    exact ⟨entry.1, List.mem_map_of_mem hEntry, hImplied⟩
  · rintro ⟨key, hKey, hImplied⟩
    rcases List.mem_map.mp hKey with ⟨entry, hEntry, rfl⟩
    exact h.agrees entry hEntry t hImplied

------------------------------------------------------------
-- Members
------------------------------------------------------------

section Members

variable {layer : Layer}

/- The names of members from different entries are distinct. -/
theorem Kept.members_nodup
    (h : layer.Kept)
    (choice : String × Value → Bool) :
    (((layer.properties.entries.filter choice).map member).map
      Prod.fst).Nodup := by
  have hNames :
      ((layer.properties.entries.filter choice).map member).map
          Prod.fst =
        ((layer.properties.entries.filter choice).map
          Prod.fst).map Spelling.hyphenated := by
    rw [List.map_map, List.map_map]
    rfl
  have hSub :
      ((layer.properties.entries.filter choice).map
        Prod.fst).Sublist layer.properties.keys :=
    List.filter_sublist.map Prod.fst
  rw [hNames]
  refine List.pairwise_map.mpr
    ((hSub.nodup layer.properties.keys_nodup).imp_of_mem ?_)
  intro key other hKey hOther hNe hSame
  exact hNe
    (Spelling.IsKept.eq_of_hyphenated_eq
      (h.properties key (hSub.subset hKey))
      (h.properties other (hSub.subset hOther)) hSame)

/- What is written into nothing under distinct names. -/
theorem Kept.entries_overlay
    (h : layer.Kept)
    (classes : List PropertyClass) :
    (Bag.empty.overlay (layer.membersOf classes)).entries =
      layer.membersOf classes :=
  Bag.entries_overlay_of_nodup _ _ (h.members_nodup _)

/- A member of some classes comes from a property of one. -/
theorem exists_of_mem_membersOf
    {classes : List PropertyClass}
    {name : String}
    (h : name ∈ (layer.membersOf classes).map Prod.fst) :
    ∃ key ∈ layer.properties.keys,
      key ≠ "zoom" ∧
        (∃ cls ∈ classes, Property.classify? key = some cls) ∧
        name = Spelling.hyphenated key := by
  rcases List.mem_map.mp h with ⟨written, hWritten, rfl⟩
  rcases List.mem_map.mp hWritten with ⟨entry, hEntry, rfl⟩
  rcases List.mem_filter.mp hEntry with ⟨hIn, hOf⟩
  rcases isOf_iff.mp hOf with ⟨hZoom, hClass⟩
  exact
    ⟨entry.1, List.mem_map_of_mem hIn, hZoom, hClass, rfl⟩

theorem membersOf_eq_nil_iff
    {classes : List PropertyClass} :
    layer.membersOf classes = [] ↔
      ∀ key ∈ layer.properties.keys,
        key ≠ "zoom" →
          ∀ cls ∈ classes,
            Property.classify? key ≠ some cls := by
  unfold membersOf membersAmong
  rw [List.map_eq_nil_iff, List.filter_eq_nil_iff]
  constructor
  · intro hNone key hKey hZoom cls hCls hClass
    rcases List.mem_map.mp hKey with ⟨entry, hEntry, rfl⟩
    exact
      hNone entry hEntry (isOf_iff.mpr ⟨hZoom, cls, hCls, hClass⟩)
  · intro hNone entry hEntry hOf
    rcases isOf_iff.mp hOf with ⟨hZoom, cls, hCls, hClass⟩
    exact
      hNone entry.1 (List.mem_map_of_mem hEntry) hZoom cls hCls
        hClass

/- A layer has an effect if it has layout or paint members. -/
theorem membersOf_eq_nil_iff_not_hasEffect :
    layer.membersOf [.layout] = [] ∧
        layer.membersOf [.paint] = [] ↔
      ¬ layer.HasEffect := by
  have hZoom : Property.classify? "zoom" = some .topLevel := by
    decide +kernel
  rw [membersOf_eq_nil_iff, membersOf_eq_nil_iff]
  constructor
  · rintro ⟨hLayout, hPaint⟩ ⟨key, hKey, hClass⟩
    have hNe : key ≠ "zoom" := by
      rintro rfl
      simp [hZoom] at hClass
    rcases hClass with hClass | hClass
    · exact hLayout key hKey hNe _ List.mem_cons_self hClass
    · exact hPaint key hKey hNe _ List.mem_cons_self hClass
  · intro hNone
    constructor
    · intro key hKey _ cls hCls hClass
      cases List.mem_singleton.mp hCls
      exact hNone ⟨key, hKey, Or.inl hClass⟩
    · intro key hKey _ cls hCls hClass
      cases List.mem_singleton.mp hCls
      exact hNone ⟨key, hKey, Or.inr hClass⟩

/- Entries of known classes are divided among the parts. -/
theorem membersAmong_perm
    {entries : List (String × Value)}
    (h :
      ∀ entry ∈ entries,
        entry.1 ≠ "zoom" →
          ∃ cls, Property.classify? entry.1 = some cls) :
    (membersAmong [.layout] entries
        ++ membersAmong [.paint] entries
        ++ membersAmong fieldClasses entries).Perm
      ((entries.filter fun entry => entry.1 ≠ "zoom").map
        member) := by
  induction entries with
  | nil => exact .nil
  | cons entry rest ih =>
      have hRest :=
        ih fun other hOther => h other (.tail _ hOther)
      by_cases hZoom : entry.1 = "zoom"
      · simpa [membersAmong, isOf, hZoom] using hRest
      have hWhole :
          (member entry ::
            (membersAmong [.layout] rest
              ++ membersAmong [.paint] rest
              ++ membersAmong fieldClasses rest)).Perm
          (((entry :: rest).filter
            fun entry => entry.1 ≠ "zoom").map member) := by
        simpa [hZoom] using hRest
      refine List.Perm.trans ?_ hWhole
      rcases h entry List.mem_cons_self hZoom with ⟨cls, hClass⟩
      cases cls with
      | layout =>
          simp [membersAmong, isOf, hClass, hZoom, fieldClasses]
      | paint =>
          simp [membersAmong, isOf, hClass, hZoom, fieldClasses]
      | topLevel =>
          simp only [membersAmong, isOf, hClass, hZoom,
            fieldClasses, ne_eq, not_false_eq_true,
            decide_true, Bool.true_and, List.filter_cons]
          exact List.perm_middle
      | hidden =>
          simp only [membersAmong, isOf, hClass, hZoom,
            fieldClasses, ne_eq, not_false_eq_true,
            decide_true, Bool.true_and, List.filter_cons]
          exact List.perm_middle

/- Every known property is a member of just one part. -/
theorem perm_membersOf
    (h : ¬ layer.HasUnknown) :
    (layer.membersOf [.layout] ++ layer.membersOf [.paint]
        ++ layer.membersOf fieldClasses).Perm
      ((layer.properties.entries.filter
        fun entry => entry.1 ≠ "zoom").map member) := by
  apply membersAmong_perm
  intro entry hEntry hZoom
  cases hClass : Property.classify? entry.1 with
  | some cls => exact ⟨cls, rfl⟩
  | none =>
      exact absurd
        ⟨entry.1, List.mem_map_of_mem hEntry, hZoom, hClass⟩ h

/- The members that are fields are few. -/
theorem classify?_field
    {key : String}
    {cls : PropertyClass}
    (hKept : Spelling.IsKept key)
    (hCls : cls ∈ fieldClasses)
    (h : Property.classify? key = some cls) :
    key ∈ Property.topLevel ++ Property.hidden := by
  unfold Property.classify? at h
  rw [hKept] at h
  dsimp only at h
  split at h
  · cases h
    simp [fieldClasses] at hCls
  · split at h
    · cases h
      simp [fieldClasses] at hCls
    · split at h
      · next hTop =>
          exact List.mem_append_left _
            (List.contains_iff_mem.mp hTop)
      · split at h
        · next hHidden =>
            exact List.mem_append_right _
              (List.contains_iff_mem.mp hHidden)
        · cases h

end Members

------------------------------------------------------------
-- The written layer
------------------------------------------------------------

/- The names of the parts and of the members that close. -/
def ownNames : List String :=
  ["layout", "paint", "type", "filter", "minzoom", "maxzoom"]

theorem writePart_eq_overlay
    (written part : Bag Json)
    (name : String) :
    writePart written name part =
      written.overlay (partMember name part.entries) := by
  unfold writePart partMember
  cases hPart : part.isEmpty with
  | true =>
      have hEntries : part.entries.isEmpty = true := hPart
      simp [hEntries]
  | false =>
      have hEntries : part.entries.isEmpty = false := hPart
      simp [hEntries, Json.ofBag]

theorem writeOptional_eq_overlay
    (written : Bag Json)
    (name : String)
    (json? : Option Json) :
    writeOptional written name json? =
      written.overlay (optionalMember name json?) := by
  cases json? <;> rfl

theorem get?_overlay_optionalMember_self
    (written : Bag Json)
    (name : String)
    (json? : Option Json) :
    (written.overlay (optionalMember name json?)).get? name =
      json?.or (written.get? name) := by
  cases json? with
  | none => rfl
  | some json =>
      have hInsert := Bag.get?_insert written name name json
      rw [if_pos rfl] at hInsert
      exact hInsert

theorem get?_overlay_optionalMember_of_ne
    (written : Bag Json)
    {name other : String}
    (json? : Option Json)
    (h : other ≠ name) :
    (written.overlay (optionalMember name json?)).get? other =
      written.get? other := by
  apply Bag.get?_overlay_of_not_mem
  intro hMember
  rcases List.mem_map.mp hMember with ⟨member, hIn, hName⟩
  rcases List.mem_map.mp hIn with ⟨json, _, rfl⟩
  exact h hName.symm

/- Writing the members one after another leaves them so. -/
theorem Parts.members_eq_overlay
    (parts : Parts)
    (layer : Layer) :
    parts.members layer =
      Bag.empty.overlay
        (partMember "layout" parts.layout.entries
          ++ partMember "paint" parts.paint.entries
          ++ parts.fields.entries
          ++ optionalMember "type"
            (parts.type?.map fun t => .text t.name)
          ++ optionalMember "filter"
            (layer.filter.map Expression.encode)
          ++ optionalMember "minzoom" layer.bounds.1
          ++ optionalMember "maxzoom" layer.bounds.2) := by
  unfold Parts.members bounds
  simp only [Bag.overlay_append, writePart_eq_overlay,
    writeOptional_eq_overlay, Parts.type?, Option.map_map]
  rfl

theorem partMember_names
    (name : String)
    (part : List (String × Json)) :
    ((partMember name part).map Prod.fst).Sublist [name] := by
  unfold partMember
  split
  · exact List.nil_sublist _
  · exact List.Sublist.refl _

theorem optionalMember_names
    (name : String)
    (json? : Option Json) :
    ((optionalMember name json?).map Prod.fst).Sublist [name] := by
  cases json? with
  | none => exact List.nil_sublist _
  | some json => exact List.Sublist.refl _

/- Each part has the members of its classes. -/
theorem Kept.entries_of_gathered
    {layer : Layer}
    {parts : Parts}
    (h : layer.Kept)
    (hParts :
      Gathered layer.properties.entries Parts.empty parts) :
    parts.layout.entries = layer.membersOf [.layout] ∧
      parts.paint.entries = layer.membersOf [.paint] ∧
      parts.fields.entries = layer.membersOf fieldClasses := by
  rw [hParts.layout, hParts.paint, hParts.fields]
  exact
    ⟨h.entries_overlay _, h.entries_overlay _,
      h.entries_overlay _⟩

/- Parts without layout and paint have no effect. -/
def Parts.written?
    (parts : Parts)
    (layer : Layer) : Option (Bag Json) :=
  if parts.layout.isEmpty && parts.paint.isEmpty then
    none
  else
    some (parts.members layer)

/- A layer is written by its parts. -/
theorem write?_eq_map (layer : Layer) :
    layer.write? =
      (gather layer.id Parts.empty layer.properties.entries).map
        fun parts => parts.written? layer := by
  unfold write?
  cases gather layer.id Parts.empty layer.properties.entries with
  | error e => rfl
  | ok parts => exact (apply_ite Except.ok _ _ _).symm

theorem exists_write?_eq_error_iff (layer : Layer) :
    (∃ e, layer.write? = .error e) ↔
      layer.HasUnknown ∨ layer.HasConflict := by
  rw [← exists_gather_eq_error_iff, write?_eq_map]
  cases gather layer.id Parts.empty layer.properties.entries with
  | error e => simp [Except.map]
  | ok parts => simp [Except.map]

/- A layer without a fault is written by what is gathered. -/
theorem exists_gathered
    {layer : Layer}
    (h : ¬ (layer.HasUnknown ∨ layer.HasConflict)) :
    ∃ parts,
      Gathered layer.properties.entries Parts.empty parts ∧
        layer.write? = .ok (parts.written? layer) := by
  rw [← exists_gather_eq_error_iff] at h
  rw [write?_eq_map]
  cases hGather :
      gather layer.id Parts.empty layer.properties.entries with
  | error e => exact absurd ⟨e, hGather⟩ h
  | ok parts => exact ⟨parts, gathered_of_gather hGather, rfl⟩

theorem Kept.written?_eq_none_iff
    {layer : Layer}
    {parts : Parts}
    (h : layer.Kept)
    (hParts :
      Gathered layer.properties.entries Parts.empty parts) :
    parts.written? layer = none ↔ ¬ layer.HasEffect := by
  rcases h.entries_of_gathered hParts with
    ⟨hLayout, hPaint, -⟩
  unfold Parts.written? Bag.isEmpty
  rw [hLayout, hPaint, ← membersOf_eq_nil_iff_not_hasEffect]
  simp

end Layer

/- The names of the members of a written layer. -/
def Layer.writtenNames? (layer : Layer) : Option (List String) :=
  match layer.write? with
  | .ok (some out) => some out.keys
  | _ => none

theorem Layer.exists_of_writtenNames?
    {layer : Layer}
    (h : layer.writtenNames?.isSome = true) :
    ∃ out, layer.write? = .ok (some out) := by
  unfold writtenNames? at h
  split at h
  · next out hWrite => exact ⟨out, hWrite⟩
  · cases h

end MapStyle
