import MapStyle.Proofs.Compilation
import MapStyle.Proofs.JsonText
import MapStyle.Proofs.References
import MapStyle.Proofs.SettledType

/-
  Which layers are left without a reference. A layer refers to
  an earlier one if the trees that they would share are the
  same, down to the order of members and the signs of zeros.
  Layers that agree only when these are left out of account
  stay apart.

  Key definitions include:
    * `Json.same`
    * `Reference.Agree`
    * `Reference.AreApart`
    * `Reference.Coincide`

  Main statements:
    * `Reference.shared_eq_iff`
    * `Reference.areApart_collapsedAfter_iff`
    * `Layer.named_of_write?`
    * `Stylesheet.Reachable.areApart_collapse_iff`
-/

namespace MapStyle

------------------------------------------------------------
-- Agreement
------------------------------------------------------------

namespace Json

mutual

/-
  Equality of trees as data: the order of the members of an
  object does not count, and the two zeros are equal.
-/
def same : Json → Json → Bool
  | .null, .null => true
  | .bool a, .bool b => a == b
  | .number a, .number b => a.same b
  | .text a, .text b => a == b
  | .array a, .array b => sameItems a b
  | .object a, .object b =>
      a.length == b.length && sameMembers a b
  | _, _ => false

/- Items are equal in their order. -/
def sameItems : List Json → List Json → Bool
  | [], [] => true
  | a :: as, b :: bs => same a b && sameItems as bs
  | _, _ => false

/- Every member is found among the others. -/
def sameMembers :
    List (String × Json) → List (String × Json) → Bool
  | [], _ => true
  | (name, a) :: rest, others =>
      (match Entries.find? name others with
        | some b => same a b
        | none => false)
        && sameMembers rest others

end

/- Two members that may be absent: both are, or neither is. -/
def sameOptional : Option Json → Option Json → Bool
  | none, none => true
  | some a, some b => a.same b
  | _, _ => false

end Json

namespace Reference

/- Two layers agree in all members that layers can share. -/
def Agree (first second : Bag Json) : Prop :=
  ∀ field ∈ fields,
    Json.sameOptional (first.get? field) (second.get? field) =
      true

instance (first second : Bag Json) :
    Decidable (Agree first second) := by
  unfold Agree
  infer_instance

/- A layer has no reference. -/
def IsPlain (layer : Bag Json) : Prop :=
  layer.get? "ref" = none

/- No two layers without references agree. -/
def AreApart (layers : List (Bag Json)) : Prop :=
  ∀ (i j : Nat) (first second : Bag Json),
    i ≠ j →
      layers[i]? = some first →
        layers[j]? = some second →
          IsPlain first → IsPlain second → ¬ Agree first second

/- Layers that agree have the same trees to share. -/
def Coincide (layers : List (Bag Json)) : Prop :=
  ∀ first ∈ layers, ∀ second ∈ layers,
    Agree first second → shared first = shared second

------------------------------------------------------------
-- Texts and trees
------------------------------------------------------------

variable {layer target : Bag Json}
variable {layers : List (Bag Json)}

/- Layers are compared by texts, and so by trees. -/
theorem shared_eq_iff
    (first second : Bag Json) :
    sharedText first = sharedText second ↔
      shared first = shared second := by
  unfold sharedText
  constructor
  · intro h
    exact Json.object.inj (Json.compact_injective h)
  · intro h
    rw [h]

theorem shared_eq_of_sharedText_eq :
    ∀ a ∈ layers, ∀ b ∈ layers,
      sharedText a = sharedText b → shared a = shared b :=
  fun a _ b _ => (shared_eq_iff a b).mp

/- Agreement is about the shared members only. -/
theorem agree_congr
    {first second first' second' : Bag Json}
    (hFirst : shared first' = shared first)
    (hSecond : shared second' = shared second)
    (h : Agree first second) :
    Agree first' second' := by
  intro field hField
  rw [get?_eq_of_shared_eq hFirst hField,
    get?_eq_of_shared_eq hSecond hField]
  exact h field hField

------------------------------------------------------------
-- Layers that are left alone
------------------------------------------------------------

/- No earlier layer has the same trees to share. -/
def IsNew
    (layers : List (Bag Json))
    (place : Nat)
    (layer : Bag Json) : Prop :=
  ∀ earlier < place, ∀ other,
    layers[earlier]? = some other →
      shared other ≠ shared layer

theorem firstLike?_eq_none_iff
    {place : Nat} :
    firstLike? (layers.take place) layer = none ↔
      IsNew layers place layer := by
  constructor
  · exact shared_ne_of_firstLike?_eq_none
  · intro h
    rw [firstLike?, List.find?_eq_none]
    intro other hOther
    rcases List.mem_take_iff_getElem.mp hOther with
      ⟨earlier, hEarlier, hAt⟩
    have hPlace : earlier < place := by omega
    have hFound : layers[earlier]? = some other := by
      rw [← hAt]
      exact List.getElem?_eq_getElem _
    rw [decide_eq_true_iff, shared_eq_iff]
    exact h earlier hPlace other hFound

/- A new layer is left alone, any other one refers. -/
theorem isPlain_collapsedOne_iff
    (hIds : ∀ l ∈ layers, (id? l).isSome = true)
    (hPlain : IsPlain layer)
    (place : Nat) :
    (IsPlain (collapsedOne (layers.take place) layer) ↔
        IsNew layers place layer) ∧
      (IsNew layers place layer →
        collapsedOne (layers.take place) layer = layer) := by
  rw [← firstLike?_eq_none_iff]
  unfold collapsedOne
  cases hFirst : firstLike? (layers.take place) layer with
  | none =>
      exact ⟨iff_of_true hPlain rfl, fun _ => rfl⟩
  | some target =>
      have hMem : target ∈ layers :=
        List.mem_of_mem_take (List.mem_of_find?_eq_some hFirst)
      rcases Option.isSome_iff_exists.mp (hIds target hMem) with
        ⟨id, hId⟩
      rw [Option.bind_some, hId]
      refine ⟨iff_of_false ?_ nofun, nofun⟩
      unfold IsPlain
      rw [get?_refer, if_pos rfl]
      exact Option.some_ne_none _

/- Every layer has a first one with the same trees to share. -/
theorem exists_isFirstLike_of_getElem?
    {place : Nat}
    (h : layers[place]? = some layer) :
    ∃ first target, IsFirstLike layers layer first target := by
  cases hFirst : firstLike? (layers.take place) layer with
  | none =>
      exact
        ⟨place, layer, h, rfl, firstLike?_eq_none_iff.mp hFirst⟩
  | some target =>
      rcases exists_isFirstLike shared_eq_of_sharedText_eq
          (List.mem_of_getElem? h) hFirst with
        ⟨first, _, hLike⟩
      exact ⟨first, target, hLike⟩

/- New layers with the same trees stand at the same place. -/
theorem IsNew.place_eq
    {i j : Nat}
    {first second : Bag Json}
    (hFirst : IsNew layers i first)
    (hSecond : IsNew layers j second)
    (hI : layers[i]? = some first)
    (hJ : layers[j]? = some second)
    (h : shared first = shared second) :
    i = j := by
  rcases lt_trichotomy i j with hLess | hSame | hGreater
  · exact absurd h (hSecond i hLess first hI)
  · exact hSame
  · exact absurd h.symm (hFirst j hGreater second hJ)

/-
  Where the layers left alone are apart, two layers that agree
  have the same first layer with their trees.
-/
theorem coincide_of_areApart
    (hPlain : ∀ l ∈ layers, IsPlain l)
    (h : AreApart (collapsedAfter [] layers)) :
    Coincide layers := by
  intro first hFirst second hSecond hAgree
  rcases List.getElem?_of_mem hFirst with ⟨_, hI⟩
  rcases List.getElem?_of_mem hSecond with ⟨_, hJ⟩
  rcases exists_isFirstLike_of_getElem? hI with ⟨i, left, hLeft⟩
  rcases exists_isFirstLike_of_getElem? hJ with
    ⟨j, right, hRight⟩
  have hBoth := agree_congr hLeft.same hRight.same hAgree
  have hPlace : i = j := by
    by_contra hNe
    exact
      h i j left right hNe
        (hLeft.collapsed shared_eq_of_sharedText_eq)
        (hRight.collapsed shared_eq_of_sharedText_eq)
        (hPlain left (List.mem_of_getElem? hLeft.found))
        (hPlain right (List.mem_of_getElem? hRight.found)) hBoth
  have hTarget : left = right := by
    have hFound := hLeft.found
    rw [hPlace, hRight.found] at hFound
    exact (Option.some.inj hFound).symm
  rw [← hLeft.same, hTarget, hRight.same]

/- A layer without a reference is new, and as it was before. -/
theorem exists_new_of_collapsedAfter
    (hIds : ∀ l ∈ layers, (id? l).isSome = true)
    (hPlain : ∀ l ∈ layers, IsPlain l)
    {place : Nat}
    (hLayer : (collapsedAfter [] layers)[place]? = some layer)
    (hKept : IsPlain layer) :
    layers[place]? = some layer ∧ IsNew layers place layer := by
  rw [getElem?_collapsedAfter, List.nil_append,
    Option.map_eq_some_iff] at hLayer
  rcases hLayer with ⟨original, hOriginal, rfl⟩
  rcases isPlain_collapsedOne_iff hIds
      (hPlain original (List.mem_of_getElem? hOriginal))
      place with
    ⟨hIff, hSame⟩
  have hNew := hIff.mp hKept
  rw [hSame hNew]
  exact ⟨hOriginal, hNew⟩

theorem areApart_of_coincide
    (hIds : ∀ l ∈ layers, (id? l).isSome = true)
    (hPlain : ∀ l ∈ layers, IsPlain l)
    (h : Coincide layers) :
    AreApart (collapsedAfter [] layers) := by
  intro i j first second hNe hI hJ hFirst hSecond hAgree
  rcases exists_new_of_collapsedAfter hIds hPlain hI hFirst with
    ⟨hLeft, hLeftNew⟩
  rcases exists_new_of_collapsedAfter hIds hPlain hJ hSecond with
    ⟨hRight, hRightNew⟩
  have hShared :=
    h first (List.mem_of_getElem? hLeft) second
      (List.mem_of_getElem? hRight) hAgree
  exact hNe (hLeftNew.place_eq hRightNew hLeft hRight hShared)

/-
  The layers without references are apart exactly if layers
  that agree have the same trees to share.
-/
theorem areApart_collapsedAfter_iff
    (hIds : ∀ l ∈ layers, (id? l).isSome = true)
    (hPlain : ∀ l ∈ layers, IsPlain l) :
    AreApart (collapsedAfter [] layers) ↔ Coincide layers :=
  ⟨coincide_of_areApart hPlain, areApart_of_coincide hIds hPlain⟩

end Reference

------------------------------------------------------------
-- Names of layers
------------------------------------------------------------

namespace Layer

/- A layer with a name among its properties. -/
def IsNamed (layer : Layer) : Prop :=
  "id" ∈ layer.properties.keys

theorem create_isNamed
    (id : String)
    (options : List (String × Value))
    (sources : Sources) :
    (create id options sources).IsNamed := by
  apply mem_keys_withSourceLayer_of_mem
  apply mem_keys_withSource_of_mem
  exact (Bag.mem_keys_insert _ _ _ _).mpr (Or.inr rfl)

theorem refine_child_isNamed
    (layer : Layer)
    (args : List Value)
    (sources : Sources) :
    (layer.refine args sources).child.IsNamed := by
  have hDerived := fun id =>
    create_isNamed id layer.properties.entries sources
  unfold refine
  dsimp only
  cases (splitZoom args).1 with
  | none => exact hDerived _
  | some zoom => exact mem_keys_put (hDerived _) _ _

/- Every operation keeps the name among the properties. -/
theorem preserved_isNamed : Preserved IsNamed where
  create := create_isNamed
  congr h hProperties _ _ := by
    unfold IsNamed
    rw [hProperties]
    exact h
  set h hSet := by
    rcases set_cases hSet with
      ⟨condition, _, rfl⟩ | ⟨settled, _, _, rfl⟩
    · exact h
    · exact mem_keys_put h _ _
  rename _ h := mem_keys_put h _ _
  child args sources _ := refine_child_isNamed _ args sources
  sibling _ _ _ _ _ :=
    (Bag.mem_keys_overlay _ _ _).mpr
      (Or.inl (create_isNamed _ _ _))

------------------------------------------------------------
-- Names of written layers
------------------------------------------------------------

/- The members of a written layer: its fields and a few more. -/
theorem Kept.mem_keys_of_write?
    {layer : Layer}
    {out : Bag Json}
    (h : layer.Kept)
    (hWrite : layer.write? = .ok (some out))
    (name : String) :
    (name ∈ (layer.membersOf fieldClasses).map Prod.fst →
        name ∈ out.keys) ∧
      (name ∈ out.keys →
        name ∈ ownNames ∨
          name ∈
            (layer.membersOf fieldClasses).map Prod.fst) := by
  rcases exists_gathered_of_write? hWrite with
    ⟨parts, hParts, rfl⟩
  rcases h.entries_of_gathered hParts with ⟨_, _, hFields⟩
  have hPart {own other : String} {part : List (String × Json)}
      (hIn : other ∈ (partMember own part).map Prod.fst) :
      other = own :=
    List.mem_singleton.mp ((partMember_names own part).subset hIn)
  have hOptional {own other : String} {json? : Option Json}
      (hIn : other ∈ (optionalMember own json?).map Prod.fst) :
      other = own :=
    List.mem_singleton.mp
      ((optionalMember_names own json?).subset hIn)
  rw [Parts.members_eq_overlay, hFields, Bag.mem_keys_overlay]
  simp only [List.map_append, List.mem_append]
  constructor
  · intro hField
    simp [hField]
  · rintro (hNone |
      ((((((hLayout | hPaint) | hField) | hType) | hFilter) |
        hLow) | hHigh))
    · cases hNone
    · exact .inl (by simp [ownNames, hPart hLayout])
    · exact .inl (by simp [ownNames, hPart hPaint])
    · exact .inr hField
    · exact .inl (by simp [ownNames, hOptional hType])
    · exact .inl (by simp [ownNames, hOptional hFilter])
    · exact .inl (by simp [ownNames, hOptional hLow])
    · exact .inl (by simp [ownNames, hOptional hHigh])

/-
  A written layer has a name, and nothing in it is taken for a
  reference.
-/
theorem named_of_write?
    {layer : Layer}
    {out : Bag Json}
    (hKept : layer.Kept)
    (hNamed : layer.IsNamed)
    (hWrite : layer.write? = .ok (some out)) :
    (Reference.id? out).isSome = true ∧
      Reference.IsPlain out := by
  have hKeys := hKept.mem_keys_of_write? hWrite
  constructor
  · rcases List.mem_map.mp hNamed with ⟨entry, hEntry, hId⟩
    have hOf : isOf fieldClasses entry = true := by
      rw [isOf_iff, hId]
      exact ⟨by decide, .hidden, by decide, by decide +kernel⟩
    have hMember :
        Spelling.hyphenated entry.1 ∈
          (layer.membersOf fieldClasses).map Prod.fst :=
      List.mem_map_of_mem
        (List.mem_map_of_mem (List.mem_filter.mpr ⟨hEntry, hOf⟩))
    have hHyphenated : Spelling.hyphenated "id" = "id" := by
      decide
    rw [hId, hHyphenated] at hMember
    have hSome :=
      (Entries.find?_isSome_iff _ _).mpr ((hKeys _).1 hMember)
    unfold Reference.id?
    rw [Option.isSome_map]
    exact hSome
  · have hFields :
        ∀ key ∈ Property.topLevel ++ Property.hidden,
          Spelling.hyphenated key ≠ "ref" := by
      decide +kernel
    unfold Reference.IsPlain
    rw [← Option.not_isSome_iff_eq_none]
    intro hSome
    have hRef := (Entries.find?_isSome_iff _ _).mp hSome
    rcases (hKeys _).2 hRef with hOwn | hField
    · exact absurd hOwn (by decide)
    · rcases exists_of_mem_membersOf hField with
        ⟨key, hKey, _, ⟨cls, hCls, hClass⟩, hName⟩
      exact
        hFields key
          (classify?_field (hKept.properties key hKey) hCls hClass)
          hName.symm

/- What is emitted is what some layer is written as. -/
theorem Emits.exists_write?
    {layers : List Layer}
    {entries : List (Bag Json)}
    (h : Emits layers entries) :
    ∀ out ∈ entries,
      ∃ layer ∈ layers, layer.write? = .ok (some out) := by
  induction h with
  | nil =>
      intro out hOut
      cases hOut
  | @cons layer entry rest entries hEntry _ ih =>
      intro out hOut
      rcases List.mem_append.mp hOut with hFirst | hLater
      · refine ⟨layer, List.mem_cons_self, ?_⟩
        rw [Option.mem_toList] at hFirst
        rw [hFirst] at hEntry
        unfold entry? at hEntry
        split at hEntry
        · exact hEntry
        · cases hEntry
      · rcases ih out hLater with ⟨other, hOther, hWrite⟩
        exact ⟨other, List.mem_cons_of_mem _ hOther, hWrite⟩

end Layer

------------------------------------------------------------
-- References in documents
------------------------------------------------------------

namespace Stylesheet

open Reference

/- The layers of a reachable stylesheet as they are written. -/
theorem Reachable.named_of_writeLayers
    {sheet : Stylesheet}
    {written : List (Bag Json)}
    (h : sheet.Reachable)
    (hWritten : (writeLayers sheet.layers).outcome = .ok written) :
    (∀ l ∈ written, (id? l).isSome = true) ∧
      ∀ l ∈ written, IsPlain l := by
  have hEach :
      ∀ out ∈ written, (id? out).isSome = true ∧ IsPlain out := by
    intro out hOut
    rcases (writeLayers_eq_ok.mp hWritten).exists_write? out
        hOut with
      ⟨layer, hLayer, hWrite⟩
    exact
      Layer.named_of_write? (h.kept layer hLayer)
        (Layer.preserved_isNamed.of_mem h layer hLayer) hWrite
  exact
    ⟨fun out hOut => (hEach out hOut).1,
      fun out hOut => (hEach out hOut).2⟩

/-
  Which written layers are left without a reference, in any
  stylesheet that is reachable: those that come first with
  their trees. So no two of them agree exactly if layers that
  agree have the same trees, with the order of members and the
  signs of zeros.
-/
theorem Reachable.areApart_collapse_iff
    {sheet : Stylesheet}
    {written : List (Bag Json)}
    (h : sheet.Reachable)
    (hWritten : (writeLayers sheet.layers).outcome = .ok written) :
    ∃ collapsed,
      (collapse written :
          Traced CompileError (List (Bag Json))).outcome =
        .ok collapsed ∧
        (AreApart collapsed ↔ Coincide written) ∧
        ∀ (place : Nat) (layer : Bag Json),
          written[place]? = some layer →
            ∃ out,
              collapsed[place]? = some out ∧
                (IsPlain out ↔ IsNew written place layer) ∧
                (IsPlain out → out = layer) := by
  rcases h.named_of_writeLayers hWritten with ⟨hIds, hPlain⟩
  refine
    ⟨collapsedAfter [] written,
      outcome_collapseFrom (fun _ => rfl) (by simp) hIds,
      areApart_collapsedAfter_iff hIds hPlain, ?_⟩
  intro place layer hLayer
  rcases isPlain_collapsedOne_iff hIds
      (hPlain layer (List.mem_of_getElem? hLayer)) place with
    ⟨hIff, hSame⟩
  refine
    ⟨collapsedOne (written.take place) layer, ?_, hIff,
      fun hOut => hSame (hIff.mp hOut)⟩
  rw [getElem?_collapsedAfter, hLayer, Option.map_some,
    List.nil_append]

/- Two layers of one shape, and a third of another. -/
def sharedCaps : String :=
  "layer :a \x7b line_cap :round
    line_width 1 \x7d
  layer :b \x7b line_width 2
    line_cap :round \x7d
  layer :c \x7b line_cap :butt
    line_width 3 \x7d"

/- The written layers of a text, before references and with. -/
def writtenLayers?
    (source : String) :
    Option (List (Bag Json) × List (Bag Json)) :=
  (Sheet.layersOf? source).bind fun layers =>
    match (writeLayers layers).outcome with
    | .ok written =>
        match
            (collapse written :
              Traced CompileError (List (Bag Json))).outcome with
        | .ok collapsed => some (written, collapsed)
        | .error _ => none
    | .error _ => none

theorem exists_of_writtenLayers?
    {source : String}
    {written collapsed : List (Bag Json)}
    (h : writtenLayers? source = some (written, collapsed)) :
    ∃ t,
      Sheet.load (Texts.ofList []) source Document.fresh =
          .ok () t ∧
        t.sheet.Reachable ∧
        (writeLayers t.sheet.layers).outcome = .ok written ∧
        (collapse written :
            Traced CompileError (List (Bag Json))).outcome =
          .ok collapsed := by
  unfold writtenLayers? at h
  rcases Option.bind_eq_some_iff.mp h with
    ⟨layers, hLayers, hBoth⟩
  rcases Sheet.layersOf?_eq_some.mp hLayers with ⟨t, hLoad, rfl⟩
  have hReach := Sheet.reachable_of_load .empty hLoad
  split at hBoth
  · next written' hWritten =>
      split at hBoth
      · next collapsed' hCollapsed =>
          cases hBoth
          exact ⟨t, hLoad, hReach, hWritten, hCollapsed⟩
      · cases hBoth
  · cases hBoth

/- The names of the layers referred to. -/
def targets (layers : List (Bag Json)) : List (Option String) :=
  layers.map fun layer =>
    match layer.get? "ref" with
    | some (.text id) => some id
    | _ => none

/- Whether layers coincide, by the texts of what they share. -/
def coincides (layers : List (Bag Json)) : Bool :=
  layers.all fun first =>
    layers.all fun second =>
      !decide (Agree first second)
        || sharedText first == sharedText second

theorem coincide_of_coincides
    {layers : List (Bag Json)}
    (h : coincides layers = true) :
    Coincide layers := by
  intro first hFirst second hSecond hAgree
  unfold coincides at h
  have hBoth :=
    List.all_eq_true.mp (List.all_eq_true.mp h first hFirst)
      second hSecond
  rw [← shared_eq_iff]
  simpa [hAgree] using hBoth

theorem Reachable.areApart_collapse_iff_sharedCaps :
    ∃ t written collapsed,
      Sheet.load (Texts.ofList []) sharedCaps Document.fresh =
          .ok () t ∧
        (writeLayers t.sheet.layers).outcome = .ok written ∧
        (collapse written :
            Traced CompileError (List (Bag Json))).outcome =
          .ok collapsed ∧
        targets collapsed = [none, some "a", none] ∧
        AreApart collapsed := by
  have hCheck :
      (writtenLayers? sharedCaps).map
          (fun both => (coincides both.1, targets both.2)) =
        some (true, [none, some "a", none]) := by
    decide +kernel
  rcases Option.map_eq_some_iff.mp hCheck with
    ⟨⟨written, collapsed⟩, hBoth, hPair⟩
  rcases exists_of_writtenLayers? hBoth with
    ⟨t, hLoad, hReach, hWritten, hCollapsed⟩
  simp only [Prod.mk.injEq] at hPair
  rcases hPair with ⟨hCoincides, hTargets⟩
  rcases hReach.areApart_collapse_iff hWritten with
    ⟨found, hFound, hIff, _⟩
  have hSame : found = collapsed := by
    rw [hCollapsed] at hFound
    exact (Except.ok.inj hFound).symm
  rw [hSame] at hIff
  exact
    ⟨t, written, collapsed, hLoad, hWritten, hCollapsed, hTargets,
      hIff.mpr (coincide_of_coincides hCoincides)⟩

/- Two layers whose layouts differ in their order only. -/
def swappedLayouts : String :=
  "layer :a \x7b line_cap :round
    line_join :bevel \x7d
  layer :b \x7b line_join :bevel
    line_cap :round \x7d"

/- Whether the first two layers agree without referring. -/
def agreeAtFront (layers : List (Bag Json)) : Bool :=
  layers[0]?.any fun first =>
    layers[1]?.any fun second =>
      decide
        (first.get? "ref" = none ∧
          second.get? "ref" = none ∧ Agree first second)

theorem not_areApart_of_agreeAtFront
    {layers : List (Bag Json)}
    (h : agreeAtFront layers = true) :
    ¬ AreApart layers := by
  unfold agreeAtFront at h
  rcases (Option.any_eq_true _ _).mp h with
    ⟨first, hFirst, hRest⟩
  rcases (Option.any_eq_true _ _).mp hRest with
    ⟨second, hSecond, hPair⟩
  rcases of_decide_eq_true hPair with
    ⟨hFirstRef, hSecondRef, hAgree⟩
  intro hApart
  exact
    hApart 0 1 first second (by decide) hFirst hSecond hFirstRef
      hSecondRef hAgree

/- They agree, and neither refers to the other. -/
theorem swappedLayouts_not_areApart :
    ∃ t written collapsed,
      Sheet.load (Texts.ofList []) swappedLayouts Document.fresh =
          .ok () t ∧
        t.sheet.Reachable ∧
        (writeLayers t.sheet.layers).outcome = .ok written ∧
        (collapse written :
            Traced CompileError (List (Bag Json))).outcome =
          .ok collapsed ∧
        ¬ AreApart collapsed := by
  have hCheck :
      (writtenLayers? swappedLayouts).map
          (fun both => agreeAtFront both.2) =
        some true := by
    decide +kernel
  rcases Option.map_eq_some_iff.mp hCheck with
    ⟨⟨written, collapsed⟩, hBoth, hPair⟩
  rcases exists_of_writtenLayers? hBoth with
    ⟨t, hLoad, hReach, hWritten, hCollapsed⟩
  exact
    ⟨t, written, collapsed, hLoad, hReach, hWritten, hCollapsed,
      not_areApart_of_agreeAtFront hPair⟩

end Stylesheet

end MapStyle
