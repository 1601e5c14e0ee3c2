import Mathlib.Data.List.Sort
import MapStyle.Expression.Build
import MapStyle.Proofs.StructuralEquality

/-
  Membership in a list of values, which may be grouped into
  lists in any way. The groups do not show: an expression tells
  of its values the leaves, read from left to right, and
  nothing else. A mapping that is the only leaf stands for
  itself, any other leaves are the items of one list.

  Key definitions include:
    * `Value.leafAt?`
    * `Value.IsReading`
    * `Value.ReadsAs`

  Main statements:
    * `Value.readsAs_iff`
    * `Expression.isIn_eq_iff`
    * `Expression.same_isIn_iff`
    * `Expression.isIn_of_readsAs`
-/

namespace MapStyle

namespace Value

------------------------------------------------------------
-- Places
------------------------------------------------------------

/- Whether a value is a list. -/
def isList : Value → Bool
  | .list _ => true
  | _ => false

/-
  A place in nested lists: the index of an item, the index of
  an item in that item, and so on.
-/
abbrev Place := List Nat

/- The leaf at a place; lists are no leaves. -/
def leafAt? : Value → Place → Option Value
  | .list _, [] => none
  | .list items, i :: inner =>
      items[i]?.bind fun v => v.leafAt? inner
  | v, [] => some v
  | _, _ :: _ => none

/-
  The leaves with all their places. Places are in the order of
  a dictionary, so that leaves are read from left to right.
-/
structure IsReading
    (v : Value)
    (places : List Place)
    (leaves : List Value) : Prop where
  ordered : places.Pairwise (· < ·)
  complete :
    ∀ place, place ∈ places ↔ (v.leafAt? place).isSome = true
  found : places.map v.leafAt? = leaves.map some

/- A value has these leaves, from left to right. -/
def ReadsAs (v : Value) (leaves : List Value) : Prop :=
  ∃ places, v.IsReading places leaves

/-
  Induction over nested lists: over the leaves, and over the
  items of a list, of which the first may be a list itself.
-/
@[elab_as_elim]
theorem nestedInduction
    {motive : Value → Prop}
    (leaf : ∀ v, v.isList = false → motive v)
    (empty : motive (.list []))
    (item :
      ∀ v rest,
        motive v →
          motive (.list rest) → motive (.list (v :: rest)))
    (v : Value) : motive v := by
  cases v with
  | list items =>
      cases items with
      | nil => exact empty
      | cons v rest =>
          have hItem := nestedInduction leaf empty item v
          have hRest :=
            nestedInduction leaf empty item (.list rest)
          exact item v rest hItem hRest
  | _ => exact leaf _ rfl
termination_by sizeOf v

variable {v w : Value}
variable {rest : List Value}
variable {place other : Place}
variable {places laterPlaces : List Place}
variable {leaves others laterLeaves : List Value}

/- A leaf has no place inside of it. -/
theorem leafAt?_of_leaf
    (h : v.isList = false) :
    v.leafAt? place = if place = [] then some v else none := by
  cases v with
  | list items => cases h
  | _ => cases place <;> rfl

/- What is at a place of nested lists is a leaf. -/
theorem isList_eq_false_of_leafAt?
    (h : v.leafAt? place = some w) :
    w.isList = false := by
  induction place generalizing v with
  | nil =>
      cases hList : v.isList with
      | true =>
          cases v with
          | list items => cases h
          | _ => cases hList
      | false =>
          rw [leafAt?_of_leaf hList, if_pos rfl] at h
          rw [← Option.some.inj h, hList]
  | cons i inner ih =>
      cases v with
      | list items =>
          rcases Option.bind_eq_some_iff.mp h with
            ⟨item, _, hInner⟩
          exact ih hInner
      | _ => cases h

/- The place of the same leaf behind one more item. -/
def Place.later : Place → Place
  | [] => []
  | i :: inner => (i + 1) :: inner

@[simp] theorem leafAt?_later :
    (list (v :: rest)).leafAt? place.later =
      (list rest).leafAt? place := by
  cases place <;> rfl

/- A leaf of a list is in its first item, or behind it. -/
theorem isSome_leafAt?_cons_iff :
    ((list (v :: rest)).leafAt? place).isSome = true ↔
      (∃ inner,
        (v.leafAt? inner).isSome = true ∧ 0 :: inner = place) ∨
        ∃ earlier,
          ((list rest).leafAt? earlier).isSome = true ∧
            earlier.later = place := by
  constructor
  · intro h
    match place with
    | [] => cases h
    | 0 :: inner => exact Or.inl ⟨inner, h, rfl⟩
    | (i + 1) :: inner => exact Or.inr ⟨i :: inner, h, rfl⟩
  · rintro (⟨inner, h, rfl⟩ | ⟨earlier, h, rfl⟩)
    · exact h
    · rw [leafAt?_later]
      exact h

theorem later_lt_later
    (h : place < other) :
    place.later < other.later := by
  cases place with
  | nil =>
      cases other with
      | nil => exact h
      | cons j outer => exact List.nil_lt_cons _ _
  | cons i inner =>
      cases other with
      | nil => exact absurd h (List.not_lt_nil _)
      | cons j outer =>
          rw [List.cons_lt_cons_iff] at h
          rw [Place.later, Place.later, List.cons_lt_cons_iff]
          exact h.imp Nat.succ_lt_succ
            (And.imp_left (congrArg Nat.succ))

------------------------------------------------------------
-- Readings
------------------------------------------------------------

namespace IsReading

theorem leaf
    (h : v.isList = false) : v.IsReading [[]] [v] where
  ordered := List.pairwise_singleton _ _
  complete place := by
    rw [leafAt?_of_leaf h, List.mem_singleton,
      Option.isSome_ite]
  found := by
    rw [List.map_singleton, leafAt?_of_leaf h, if_pos rfl]
    rfl

theorem empty : (list []).IsReading [] [] where
  ordered := List.Pairwise.nil
  complete place := by cases place <;> simp [leafAt?]
  found := rfl

/- A list itself is not at the place of a leaf. -/
theorem ne_nil
    (h : (list rest).IsReading places leaves)
    (hPlace : place ∈ places) : place ≠ [] := by
  rintro rfl
  exact absurd ((h.complete []).mp hPlace) (by simp [leafAt?])

/- The leaves of an item are read before the later ones. -/
theorem item
    (hItem : v.IsReading places leaves)
    (hRest : (list rest).IsReading laterPlaces laterLeaves) :
    (list (v :: rest)).IsReading
      (places.map (0 :: ·) ++ laterPlaces.map Place.later)
      (leaves ++ laterLeaves) where
  ordered := by
    rw [List.pairwise_append, List.pairwise_map,
      List.pairwise_map]
    refine ⟨?_, hRest.ordered.imp later_lt_later, ?_⟩
    · apply hItem.ordered.imp
      intro place other h
      exact List.cons_lt_cons_iff.mpr (Or.inr ⟨rfl, h⟩)
    · -- the index of the item is what tells the places apart
      intro first hFirst second hSecond
      rcases List.mem_map.mp hFirst with ⟨inner, _, rfl⟩
      rcases List.mem_map.mp hSecond with ⟨place, hPlace, rfl⟩
      cases place with
      | nil => exact absurd rfl (hRest.ne_nil hPlace)
      | cons i outer =>
          exact
            List.cons_lt_cons_iff.mpr
              (Or.inl (Nat.succ_pos i))
  complete place := by
    rw [List.mem_append, List.mem_map, List.mem_map,
      isSome_leafAt?_cons_iff]
    simp only [hItem.complete, hRest.complete]
  found := by
    rw [List.map_append, List.map_map, List.map_map,
      List.map_append, ← hItem.found, ← hRest.found]
    congr 1
    apply List.map_congr_left
    intro place _
    exact leafAt?_later

/- There is one reading only. -/
theorem unique
    (h : v.IsReading places leaves)
    (hOther : v.IsReading laterPlaces others) :
    leaves = others := by
  have hPlaces : places = laterPlaces := by
    apply h.ordered.eq_of_mem_iff hOther.ordered
    intro place
    rw [h.complete, hOther.complete]
  apply List.map_injective_iff.mpr (Option.some_injective Value)
  rw [← h.found, ← hOther.found, hPlaces]

theorem isList_eq_false_of_mem
    (h : v.IsReading places leaves)
    (hLeaf : w ∈ leaves) : w.isList = false := by
  have hFound : some w ∈ places.map v.leafAt? := by
    rw [h.found]
    exact List.mem_map_of_mem hLeaf
  rcases List.mem_map.mp hFound with ⟨place, _, hPlace⟩
  exact isList_eq_false_of_leafAt? hPlace

end IsReading

theorem leaves_of_leaf
    (h : v.isList = false) : Expression.leaves v = [v] := by
  cases v with
  | list items => cases h
  | _ => rfl

/-
  The leaves that are taken together are those of a reading.
  The induction is on the nesting: a reading of an item is
  continued by one of the items behind it.
-/
theorem readsAs_leaves (v : Value) :
    v.ReadsAs (Expression.leaves v) := by
  induction v using nestedInduction with
  | leaf v hLeaf =>
      rw [leaves_of_leaf hLeaf]
      exact ⟨_, .leaf hLeaf⟩
  | empty => exact ⟨_, .empty⟩
  | item v rest ihItem ihRest =>
      rcases ihItem with ⟨places, hItem⟩
      rcases ihRest with ⟨laterPlaces, hRest⟩
      exact ⟨_, hItem.item hRest⟩

theorem readsAs_iff :
    v.ReadsAs leaves ↔ Expression.leaves v = leaves := by
  constructor
  · rintro ⟨places, h⟩
    rcases readsAs_leaves v with ⟨others, hLeaves⟩
    exact hLeaves.unique h
  · rintro rfl
    exact readsAs_leaves v

/- Of lists that are equal as data, both are single mappings. -/
theorem single_map_iff
    (h : sameItems leaves others = true) :
    (∃ entries, leaves = [.map entries]) ↔
      ∃ entries, others = [.map entries] := by
  constructor
  · rintro ⟨entries, rfl⟩
    match others with
    | [] => simp [sameItems] at h
    | [v] =>
        rw [sameItems, Bool.and_eq_true] at h
        rcases map_same_iff.mp h.1 with ⟨found, rfl, _⟩
        exact ⟨found, rfl⟩
    | _ :: _ :: _ => simp [sameItems] at h
  · rintro ⟨entries, rfl⟩
    match leaves with
    | [] => simp [sameItems] at h
    | [v] =>
        rw [sameItems, Bool.and_eq_true] at h
        cases v with
        | map found => exact ⟨found, rfl⟩
        | _ => simp [same] at h
    | _ :: _ :: _ => simp [sameItems] at h

end Value

------------------------------------------------------------
-- Membership
------------------------------------------------------------

namespace Expression

variable {subject other : Expression}
variable {first second args leaves : List Value}

/- Only a mapping on its own is not put into a list. -/
theorem literal_eq_list_iff :
    literal args = .node "literal" [.list args] ↔
      ∀ entries, args ≠ [.map entries] := by
  constructor
  · rintro h entries rfl
    cases h
  · intro h
    unfold literal
    split
    · next entries => exact absurd rfl (h entries)
    · rfl

theorem literal_injective : Function.Injective literal := by
  intro first second h
  unfold literal at h
  split at h
  · split at h
    · cases h
      rfl
    · cases h
  · split at h
    · cases h
    · cases h
      rfl

/- Literals are equal as data if what is in them is. -/
theorem same_literal_iff :
    (literal first).same (literal second) = true ↔
      Value.sameItems first second = true := by
  unfold literal
  split
  · split
    · simp [same]
    · next hSecond =>
      apply iff_of_false
      · simp [same, Value.sameItems, Value.same]
      · intro hSame
        rcases (Value.single_map_iff hSame).mp ⟨_, rfl⟩ with
          ⟨entries, hEntries⟩
        exact hSecond entries hEntries
  · next hFirst =>
    split
    · apply iff_of_false
      · simp [same, Value.sameItems, Value.same]
      · intro hSame
        rcases (Value.single_map_iff hSame).mpr ⟨_, rfl⟩ with
          ⟨entries, hEntries⟩
        exact hFirst entries hEntries
    · simp [same, Value.sameItems, Value.same]

/- A membership tells of its values the leaves, no more. -/
theorem isIn_eq_iff :
    subject.isIn first = other.isIn second ↔
      subject = other ∧
        leavesOfAll first = leavesOfAll second := by
  unfold isIn
  simp [literal_injective.eq_iff]

/- As data, they are compared by subject and leaves as well. -/
theorem same_isIn_iff :
    (subject.isIn first).same (other.isIn second) = true ↔
      subject.same other = true ∧
        Value.sameItems (leavesOfAll first)
          (leavesOfAll second) = true := by
  rw [← same_literal_iff]
  simp [isIn, same, Value.same, Value.sameItems]

/-
  Membership in nested lists. Each argument list has its leaves
  in one order; argument lists give the same expression exactly
  if they have the same leaves in that order. They are the items
  of one list, unless a mapping is the only leaf, and none of
  them is a list.
-/
theorem isIn_of_readsAs (subject : Expression) :
    (∀ values, ∃! leaves, (Value.list values).ReadsAs leaves) ∧
      ∀ values leaves,
        (Value.list values).ReadsAs leaves →
          (∀ others,
            subject.isIn others = subject.isIn values ↔
              (Value.list others).ReadsAs leaves) ∧
            (subject.isIn values =
                .node "in"
                  [.expr subject,
                    .expr (.node "literal" [.list leaves])] ↔
              ∀ entries, leaves ≠ [.map entries]) ∧
            ∀ v ∈ leaves, v.isList = false := by
  constructor
  · intro values
    refine ⟨leavesOfAll values, Value.readsAs_leaves _, ?_⟩
    intro leaves hReads
    exact (Value.readsAs_iff.mp hReads).symm
  · intro values leaves hReads
    have hLeaves : leavesOfAll values = leaves :=
      Value.readsAs_iff.mp hReads
    refine ⟨?_, ?_, ?_⟩
    · intro others
      rw [isIn_eq_iff, hLeaves, Value.readsAs_iff]
      exact and_iff_right rfl
    · rw [← literal_eq_list_iff, ← hLeaves]
      unfold isIn
      simp
    · rcases hReads with ⟨places, hReading⟩
      intro v hLeaf
      exact hReading.isList_eq_false_of_mem hLeaf

/- Classes of waterways, some of them in groups. -/
def groupedClasses : List Value :=
  [.list [],
    .list [.text "river", .list [.list [.text "canal"]]]]

/-
  The groups do not show; a single mapping is not put into a
  list, as deep as it may be.
-/
theorem isIn_of_readsAs_groupedClasses :
    (get "class").isIn [.text "river", .text "canal"] =
        (get "class").isIn groupedClasses ∧
      (get "class").isIn groupedClasses =
        .node "in"
          [.expr (get "class"),
            .expr
              (.node "literal"
                [.list [.text "river", .text "canal"]])] ∧
      (get "class").isIn [.list [.map [], .list []]] ≠
        .node "in"
          [.expr (get "class"),
            .expr (.node "literal" [.list [.map []]])] := by
  have hGrouped :
      (Value.list groupedClasses).ReadsAs
        [.text "river", .text "canal"] :=
    Value.readsAs_iff.mpr rfl
  have hMapping :
      (Value.list [.list [.map [], .list []]]).ReadsAs
        [.map []] :=
    Value.readsAs_iff.mpr rfl
  rcases (isIn_of_readsAs (get "class")).2 _ _ hGrouped with
    ⟨hSame, hList, _⟩
  rcases (isIn_of_readsAs (get "class")).2 _ _ hMapping with
    ⟨_, hAlone, _⟩
  refine ⟨?_, ?_, ?_⟩
  · exact (hSame _).mpr (Value.readsAs_iff.mpr rfl)
  · apply hList.mpr
    intro entries h
    cases h
  · intro h
    exact hAlone.mp h [] rfl

end Expression

end MapStyle
