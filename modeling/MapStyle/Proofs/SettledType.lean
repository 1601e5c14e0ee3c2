import MapStyle.Proofs.WrittenLayer

/-
  The two ways in which the render type of a layer is found:
  assignments settle it one by one, and writing the layer
  settles it afresh from all properties. A layer is grounded
  when some property of it implies the type that has been
  settled; every operation keeps layers grounded, so the two
  agree.

  Key definitions include:
    * `Layer.Grounded`

  Main statements:
    * `Layer.preserved_grounded`
    * `Layer.Grounded.type_of_write?`
    * `Layer.Grounded.write?_of_set_error`
    * `Layer.Reachable.settled_agrees`
-/

namespace MapStyle

namespace Layer

------------------------------------------------------------
-- Settling
------------------------------------------------------------

variable {layer next : Layer}
variable {name key : String}
variable {value : Value}

/- An assignment settles the type that its property implies. -/
theorem settledWith_eq_ok
    {settled : Option Settled}
    (h : layer.settledWith key = .ok settled) :
    settled.map Settled.renderType =
      layer.renderType?.or (impliedType? key) := by
  unfold settledWith at h
  unfold impliedType?
  cases hClass : Property.classify? key with
  | none =>
      rw [hClass] at h
      cases h
      exact Option.or_none.symm
  | some cls =>
      rw [hClass] at h
      dsimp only at h ⊢
      by_cases hTyped : cls.impliesType = true
      · rw [if_pos hTyped] at h ⊢
        exact (settle_eq_ok h).1
      · rw [if_neg hTyped] at h ⊢
        cases h
        exact Option.or_none.symm

/- A rejected property implies another type than is settled. -/
theorem settledWith_eq_error
    {e : CompileError}
    (h : layer.settledWith key = .error e) :
    ∃ s t,
      layer.renderType? = some s ∧ impliedType? key = some t ∧
        s ≠ t := by
  unfold settledWith at h
  unfold impliedType?
  cases hClass : Property.classify? key with
  | none =>
      rw [hClass] at h
      cases h
  | some cls =>
      rw [hClass] at h
      dsimp only at h ⊢
      by_cases hTyped : cls.impliesType = true
      · rw [if_pos hTyped] at h ⊢
        exact settle_eq_error h
      · rw [if_neg hTyped] at h
        cases h

/-
  Only direct assignments are rejected, and only for the type
  that they imply.
-/
theorem set_eq_error
    {e : CompileError}
    (h : layer.set name value = .error e) :
    ∃ s t,
      layer.renderType? = some s ∧
        impliedType? (Spelling.underscored name) = some t ∧
          s ≠ t := by
  cases hActive : layer.active with
  | some condition =>
      rw [set_of_active name value hActive] at h
      cases h
  | none =>
      rw [set_of_inactive name value hActive] at h
      cases hSettled :
          layer.settledWith (Spelling.underscored name) with
      | ok settled =>
          rw [hSettled] at h
          cases h
      | error found => exact settledWith_eq_error hSettled

------------------------------------------------------------
-- Grounded layers
------------------------------------------------------------

/-
  A layer with kept names, one of which implies the type that
  is settled.
-/
structure Grounded (layer : Layer) : Prop where
  kept : layer.Kept
  implied :
    ∀ t,
      layer.renderType? = some t →
        ∃ key ∈ layer.properties.keys,
          impliedType? key = some t

/- More properties leave the type grounded. -/
theorem Grounded.grow
    (h : layer.Grounded)
    (hKept : next.Kept)
    (hType : next.renderType? = layer.renderType?)
    (hKeys :
      ∀ key ∈ layer.properties.keys,
        key ∈ next.properties.keys) :
    next.Grounded where
  kept := hKept
  implied := by
    intro t hSettled
    rw [hType] at hSettled
    rcases h.implied t hSettled with ⟨key, hKey, hImplied⟩
    exact ⟨key, hKeys key hKey, hImplied⟩

/- What is not settled needs no ground. -/
theorem create_grounded
    (id : String)
    (options : List (String × Value))
    (sources : Sources) :
    (create id options sources).Grounded where
  kept := create_kept id options sources
  implied := by
    intro t hSettled
    rcases exists_create_eq id options sources with
      ⟨properties, hCreate⟩
    rw [hCreate] at hSettled
    cases hSettled

theorem Grounded.set
    (h : layer.Grounded)
    (hSet : layer.set name value = .ok next) :
    next.Grounded where
  kept := h.kept.set hSet
  implied := by
    intro t hType
    rcases set_cases hSet with
      ⟨condition, _, rfl⟩ | ⟨settled, _, hSettled, rfl⟩
    · exact h.implied t hType
    · have hEither := settledWith_eq_ok hSettled
      have hNew : settled.map Settled.renderType = some t :=
        hType
      rw [hEither, Option.or_eq_some_iff] at hNew
      rcases hNew with hOld | ⟨_, hImplied⟩
      · rcases h.implied t hOld with ⟨key, hKey, hImplied⟩
        exact ⟨key, mem_keys_put hKey _ _, hImplied⟩
      · refine ⟨_, ?_, hImplied⟩
        exact (Bag.mem_keys_insert _ _ _ _).mpr (Or.inr rfl)

/- A derived layer has all properties of the other one. -/
theorem Kept.mem_keys_derive
    (h : layer.Kept)
    (hKey : key ∈ layer.properties.keys)
    (id : String)
    (sources : Sources) :
    key ∈ (layer.derive id sources).properties.keys := by
  apply mem_keys_create_of_mem
  rcases List.mem_map.mp hKey with ⟨entry, hEntry, rfl⟩
  exact
    List.mem_map.mpr
      ⟨entry, hEntry, h.properties entry.1 hKey⟩

theorem Grounded.derive
    (h : layer.Grounded)
    (id : String)
    (sources : Sources) :
    (layer.derive id sources).Grounded :=
  h.grow (derive_kept layer id sources) rfl
    fun _ hKey => h.kept.mem_keys_derive hKey id sources

theorem Grounded.refine_child
    (h : layer.Grounded)
    (args : List Value)
    (sources : Sources) :
    (layer.refine args sources).child.Grounded := by
  have hKept := h.kept.refine_child args sources
  have hDerived := fun id => h.derive id sources
  unfold refine at hKept ⊢
  dsimp only at hKept ⊢
  cases hZoom : (splitZoom args).1 with
  | none =>
      rw [hZoom] at hKept
      exact (hDerived _).grow hKept rfl fun _ hKey => hKey
  | some zoom =>
      rw [hZoom] at hKept
      exact
        (hDerived _).grow hKept rfl
          fun _ hKey => mem_keys_put hKey _ _

/- Overrides come in addition to what the child has. -/
theorem Grounded.sibling
    {r : Refinement}
    {child : Layer}
    {cascade : Cascade}
    (h : child.Grounded)
    (sources : Sources)
    (index : Nat)
    (hParent : r.parent.Kept)
    (hCascade : cascade ∈ r.parent.cascades) :
    (r.sibling child sources index cascade).Grounded := by
  have hKept := hParent.sibling r child sources index hCascade
  apply
    (h.derive (Refinement.siblingId child index) sources).grow
      hKept rfl
  intro key hKey
  exact (Bag.mem_keys_overlay _ _ _).mpr (Or.inl hKey)

/- Every operation keeps layers grounded. -/
theorem preserved_grounded : Preserved Grounded where
  create := create_grounded
  congr h hProperties hSettled hCascades :=
    h.grow
      (preserved_kept.congr h.kept hProperties hSettled
        hCascades)
      (congrArg (Option.map Settled.renderType) hSettled)
      fun _ hKey => hProperties ▸ hKey
  set h hSet := h.set hSet
  rename name h :=
    h.grow (preserved_kept.rename name h.kept) rfl
      fun _ hKey => mem_keys_put hKey _ _
  child args sources h := h.refine_child args sources
  sibling sources index hParent hChild hCascade :=
    hChild.sibling sources index hParent.kept hCascade

------------------------------------------------------------
-- Written layers
------------------------------------------------------------

/- The type of a written layer is the one that is gathered. -/
theorem Parts.get?_members_type
    {parts : Parts}
    {t : RenderType}
    (h : parts.type? = some t) :
    (parts.members layer).get? "type" =
      some (.text t.name) := by
  rw [Parts.members_eq_overlay, h, Bag.overlay_append,
    Bag.overlay_append, Bag.overlay_append, Bag.overlay_append,
    get?_overlay_optionalMember_of_ne _ _ (by decide),
    get?_overlay_optionalMember_of_ne _ _ (by decide),
    get?_overlay_optionalMember_of_ne _ _ (by decide),
    get?_overlay_optionalMember_self]
  rfl

/- A layer with an output is written by gathered parts. -/
theorem exists_gathered_of_write?
    {out : Bag Json}
    (h : layer.write? = .ok (some out)) :
    ∃ parts,
      Gathered layer.properties.entries Parts.empty parts ∧
        out = parts.members layer := by
  have hSound : ¬ (layer.HasUnknown ∨ layer.HasConflict) := by
    rw [← exists_write?_eq_error_iff, h]
    rintro ⟨e, hError⟩
    cases hError
  rcases exists_gathered hSound with
    ⟨parts, hParts, hWritten⟩
  rw [h] at hWritten
  have hOut := Except.ok.inj hWritten
  unfold Parts.written? at hOut
  split at hOut
  · cases hOut
  · exact ⟨parts, hParts, Option.some.inj hOut⟩

/- A grounded layer is written with the type that is settled. -/
theorem Grounded.type_of_write?
    {t : RenderType}
    {out : Bag Json}
    (h : layer.Grounded)
    (hType : layer.renderType? = some t)
    (hWrite : layer.write? = .ok (some out)) :
    out.get? "type" = some (.text t.name) := by
  rcases exists_gathered_of_write? hWrite with
    ⟨parts, hParts, rfl⟩
  apply Parts.get?_members_type
  exact (isImplied_of_gathered hParts t).mpr (h.implied t hType)

/-
  What an assignment rejects cannot be written either, with
  whatever other properties.
-/
theorem Grounded.write?_of_set_error
    {other : Layer}
    {e : CompileError}
    (h : layer.Grounded)
    (hSet : layer.set name value = .error e)
    (hKeys :
      ∀ key ∈ layer.properties.keys,
        key ∈ other.properties.keys)
    (hName :
      Spelling.underscored name ∈ other.properties.keys) :
    ∃ found, other.write? = .error found := by
  rcases set_eq_error hSet with
    ⟨s, t, hSettled, hImplied, hNe⟩
  rcases h.implied s hSettled with ⟨key, hKey, hGround⟩
  apply (exists_write?_eq_error_iff other).mpr
  exact
    Or.inr
      ⟨key, hKeys key hKey, _, hName, s, t, hGround, hImplied,
        hNe⟩

------------------------------------------------------------
-- Reachable layers
------------------------------------------------------------

/-
  How the two ways agree for every reachable layer. If it has
  an output, the type that is settled is the one written; what
  an assignment rejects, writing rejects with whatever further
  entries; and a rejected assignment changes nothing.
-/
theorem Reachable.settled_agrees
    (h : layer.Reachable) :
    (∀ t out,
      layer.renderType? = some t →
        layer.write? = .ok (some out) →
          out.get? "type" = some (.text t.name)) ∧
      (∀ name value e,
        layer.set name value = .error e →
          ∀ more : List (String × Value),
            ∃ found,
              Layer.write?
                  { layer with
                    properties :=
                      (layer.properties.insert
                        (Spelling.underscored name)
                        value).overlay more } =
                .error found) ∧
      ∀ name value e w v,
        w.layer = layer →
          Build.set name value w = .error e v →
            v.layer = layer ∧ v.sheet = w.sheet := by
  have hGrounded := preserved_grounded.reachable h
  refine ⟨?_, ?_, ?_⟩
  · intro t out hType hWrite
    exact hGrounded.type_of_write? hType hWrite
  · intro name value e hSet more
    apply hGrounded.write?_of_set_error hSet
    · intro key hKey
      apply (Bag.mem_keys_overlay _ _ _).mpr
      exact
        Or.inl ((Bag.mem_keys_insert _ _ _ _).mpr (Or.inl hKey))
    · apply (Bag.mem_keys_overlay _ _ _).mpr
      exact
        Or.inl ((Bag.mem_keys_insert _ _ _ _).mpr (Or.inr rfl))
  · rintro name value e w v rfl hSet
    unfold Build.set at hSet
    cases hOutcome : w.layer.set name value with
    | ok next =>
        rw [hOutcome] at hSet
        cases hSet
    | error found =>
        rw [hOutcome] at hSet
        cases hSet
        exact ⟨rfl, rfl⟩

/- A layer of lines, and a sibling that is drawn otherwise. -/
def dashedLayers : String :=
  "layer :a \x7b
    line_width 1
    cascade k \x7b line_opacity 2 \x7d
    on
  \x7d"

/- Whether a layer draws lines and does not take a fill. -/
def takesNoFill (layer : Layer) : Bool :=
  layer.renderType? = some .line &&
    layer.writtenNames?.isSome &&
    (layer.set "fill_color" (.int 2)).toOption.isNone

theorem Reachable.settled_agrees_dashedLayers :
    ∃ t layer out e found,
      Sheet.load (Texts.ofList []) dashedLayers Document.fresh =
          .ok () t ∧
        t.sheet.layers[2]? = some layer ∧
        layer.id = "a__1__a" ∧
        layer.renderType? = some .line ∧
        layer.write? = .ok (some out) ∧
        out.get? "type" = some (.text "line") ∧
        layer.set "fill_color" (.int 2) = .error e ∧
        Layer.write?
            { layer with
              properties :=
                layer.properties.insert "fill_color" (.int 2) } =
          .error found ∧
        ∀ w v,
          w.layer = layer →
            Build.set "fill_color" (.int 2) w = .error e v →
              v.layer = layer ∧ v.sheet = w.sheet := by
  have hCheck :
      ((Sheet.layersOf? dashedLayers).bind (·[2]?)).map
          (fun layer => (layer.id, layer.takesNoFill)) =
        some ("a__1__a", true) := by
    decide +kernel
  rcases Option.map_eq_some_iff.mp hCheck with
    ⟨layer, hFound, hLayer⟩
  rcases Option.bind_eq_some_iff.mp hFound with
    ⟨layers, hLayers, hIndex⟩
  rcases Sheet.layersOf?_eq_some.mp hLayers with
    ⟨t, hLoad, rfl⟩
  rcases Prod.mk.inj hLayer with ⟨hId, hNoFill⟩
  have hSheet : t.sheet.Reachable := by
    have hAfter :=
      Sheet.leadsOn_load (Texts.ofList []) dashedLayers
        Document.fresh .empty
    unfold Sheet.after at hAfter
    rw [hLoad] at hAfter
    exact hAfter
  have hReach :=
    reachable_of_mem hSheet (List.mem_of_getElem? hIndex)
  rcases hReach.settled_agrees with ⟨hWritten, hError, hKept⟩
  unfold takesNoFill at hNoFill
  rw [Bool.and_eq_true, Bool.and_eq_true, decide_eq_true_iff]
    at hNoFill
  rcases hNoFill with ⟨⟨hLine, hOut⟩, hSet⟩
  rcases exists_of_writtenNames? hOut with ⟨out, hWrite⟩
  cases hReject : layer.set "fill_color" (.int 2) with
  | ok next =>
      rw [hReject] at hSet
      cases hSet
  | error e =>
      rcases hError _ _ _ hReject [] with ⟨found, hFault⟩
      exact
        ⟨t, layer, out, e, found, hLoad, hIndex, hId, hLine,
          hWrite, hWritten _ _ hLine hWrite, hReject, hFault,
          hKept _ _ _⟩

end Layer

end MapStyle
