import Mathlib.Data.List.Basic
import MapStyle.Bag

/-
  Writing several entries into a bag: which names it has
  afterwards, what stands under them, and when the entries
  come out as they are.

  Main statements:
    * `Bag.entries_overlay_of_nodup`
    * `Bag.ofList_entries`
    * `Bag.mem_keys_overlay`
    * `Bag.get?_overlay_of_not_mem`
    * `Bag.get?_overlay`
    * `Bag.keys_overlay`
    * `Bag.get?_overlay_reverse`
    * `Bag.find?_reverse`
    * `Bag.get?_erase`
    * `Bag.perm_of_get?_eq`
    * `Bag.entries_eq_filterMap`
-/

namespace MapStyle

------------------------------------------------------------
-- Entry lists
------------------------------------------------------------

namespace Entries

variable {α : Type}

/- A new name goes to the end. -/
theorem put_of_not_mem
    {name : String}
    {entries : List (String × α)}
    (value : α)
    (h : name ∉ entries.map Prod.fst) :
    put name value entries = entries ++ [(name, value)] := by
  induction entries with
  | nil => rfl
  | cons entry rest ih =>
      rcases entry with ⟨k, v⟩
      rw [List.map_cons, List.mem_cons, not_or] at h
      rcases h with ⟨hHead, hRest⟩
      have hNe : k ≠ name := fun e => hHead e.symm
      rw [put, if_neg hNe, ih hRest]
      rfl

/- What stands under a name after another one is removed. -/
theorem find?_filter_ne
    (name other : String)
    (entries : List (String × α)) :
    find? other (entries.filter fun e => e.1 ≠ name) =
      if other = name then none else find? other entries := by
  induction entries with
  | nil => simp [find?]
  | cons entry rest ih =>
      rcases entry with ⟨k, v⟩
      by_cases hName : k = name
      · subst hName
        rw [List.filter_cons_of_neg (by simp), ih]
        by_cases hOther : other = k
        · simp [hOther]
        · have hNe : k ≠ other := fun e => hOther e.symm
          simp [hOther, find?, hNe]
      · rw [List.filter_cons_of_pos (by simpa using hName)]
        by_cases hOther : k = other
        · subst hOther
          simp [find?, hName]
        · simp only [find?, if_neg hOther, ih]

/- An entry that is found is one of the entries. -/
theorem mem_of_find?
    {name : String}
    {value : α}
    {entries : List (String × α)}
    (h : find? name entries = some value) :
    (name, value) ∈ entries := by
  induction entries with
  | nil => cases h
  | cons entry rest ih =>
      rcases entry with ⟨k, v⟩
      rw [find?] at h
      by_cases hName : k = name
      · rw [if_pos hName, Option.some.injEq] at h
        subst hName h
        exact List.mem_cons_self
      · rw [if_neg hName] at h
        exact List.mem_cons_of_mem _ (ih h)

/- A name whose entry comes first in a list of distinct names. -/
theorem find?_eq_some_iff
    {entries : List (String × α)}
    (h : (entries.map Prod.fst).Nodup)
    (name : String)
    (value : α) :
    find? name entries = some value ↔
      (name, value) ∈ entries := by
  refine ⟨mem_of_find?, ?_⟩
  intro hMem
  induction entries with
  | nil => cases hMem
  | cons entry rest ih =>
      rcases entry with ⟨k, v⟩
      rw [List.map_cons, List.nodup_cons] at h
      rcases h with ⟨hNew, hRest⟩
      rcases List.mem_cons.mp hMem with hHead | hLater
      · cases hHead
        exact if_pos rfl
      · have hNe : k ≠ name := by
          rintro rfl
          exact hNew (List.mem_map.mpr ⟨_, hLater, rfl⟩)
        rw [find?, if_neg hNe]
        exact ih hRest hLater

theorem find?_append
    (name : String)
    (first second : List (String × α)) :
    find? name (first ++ second) =
      (find? name first).or (find? name second) := by
  induction first with
  | nil => rfl
  | cons entry rest ih =>
      rcases entry with ⟨k, v⟩
      rw [List.cons_append, find?, find?, ih]
      split
      · rfl
      · rfl

end Entries

------------------------------------------------------------
-- Single writes
------------------------------------------------------------

namespace Bag

variable {α : Type}

theorem mem_keys_insert
    (bag : Bag α)
    (name other : String)
    (value : α) :
    other ∈ (bag.insert name value).keys ↔
      other ∈ bag.keys ∨ other = name := by
  rw [keys_insert]
  by_cases hName : name ∈ bag.keys
  · rw [if_pos hName]
    constructor
    · exact Or.inl
    · rintro (hOld | rfl)
      · exact hOld
      · exact hName
  · rw [if_neg hName, List.mem_append, List.mem_singleton]

------------------------------------------------------------
-- Several writes
------------------------------------------------------------

@[simp] theorem overlay_nil (bag : Bag α) :
    bag.overlay [] = bag := rfl

@[simp] theorem overlay_cons
    (bag : Bag α)
    (entry : String × α)
    (rest : List (String × α)) :
    bag.overlay (entry :: rest) =
      (bag.insert entry.1 entry.2).overlay rest := rfl

theorem overlay_append
    (bag : Bag α)
    (first second : List (String × α)) :
    bag.overlay (first ++ second) =
      (bag.overlay first).overlay second :=
  List.foldl_append

/-
  Entries whose names are all new and distinct come out as
  they are, after the old ones.
-/
theorem entries_overlay_of_nodup
    (bag : Bag α)
    (entries : List (String × α))
    (h : (bag.keys ++ entries.map Prod.fst).Nodup) :
    (bag.overlay entries).entries = bag.entries ++ entries := by
  induction entries generalizing bag with
  | nil => exact (List.append_nil _).symm
  | cons entry rest ih =>
      rcases entry with ⟨k, v⟩
      have hNew : k ∉ bag.keys := by
        intro hOld
        have hDisjoint := (List.nodup_append.mp h).2.2
        exact hDisjoint k hOld k
          (by simp) rfl
      have hEntries :
          (bag.insert k v).entries = bag.entries ++ [(k, v)] :=
        Entries.put_of_not_mem v hNew
      have hKeys :
          (bag.insert k v).keys = bag.keys ++ [k] := by
        rw [keys_insert, if_neg hNew]
      rw [overlay_cons, ih (bag.insert k v), hEntries]
      · exact List.append_assoc _ _ _
      · rw [hKeys, List.append_assoc]
        exact h

/- Writing all entries of a bag into nothing restores it. -/
@[simp] theorem ofList_entries (bag : Bag α) :
    ofList bag.entries = bag := by
  apply ext
  exact entries_overlay_of_nodup empty bag.entries
    bag.keys_nodup

theorem mem_keys_overlay
    (bag : Bag α)
    (entries : List (String × α))
    (name : String) :
    name ∈ (bag.overlay entries).keys ↔
      name ∈ bag.keys ∨ name ∈ entries.map Prod.fst := by
  induction entries generalizing bag with
  | nil => simp
  | cons entry rest ih =>
      rw [overlay_cons, ih, mem_keys_insert, List.map_cons,
        List.mem_cons, or_assoc]

theorem mem_keys_ofList
    (entries : List (String × α))
    (name : String) :
    name ∈ (ofList entries).keys ↔
      name ∈ entries.map Prod.fst := by
  rw [ofList, mem_keys_overlay]
  constructor
  · rintro (hEmpty | hEntry)
    · cases hEmpty
    · exact hEntry
  · exact Or.inr

/- A name that is not written keeps its value. -/
theorem get?_overlay_of_not_mem
    (bag : Bag α)
    {entries : List (String × α)}
    {name : String}
    (h : name ∉ entries.map Prod.fst) :
    (bag.overlay entries).get? name = bag.get? name := by
  induction entries generalizing bag with
  | nil => rfl
  | cons entry rest ih =>
      rw [List.map_cons, List.mem_cons, not_or] at h
      rcases h with ⟨hHead, hRest⟩
      rw [overlay_cons, ih _ hRest, get?_insert, if_neg hHead]

/- Of distinct names, those that are written have new values. -/
theorem get?_overlay
    (bag : Bag α)
    {entries : List (String × α)}
    (h : (entries.map Prod.fst).Nodup)
    (name : String) :
    (bag.overlay entries).get? name =
      (Entries.find? name entries).or (bag.get? name) := by
  induction entries generalizing bag with
  | nil => rfl
  | cons entry rest ih =>
      rcases entry with ⟨k, v⟩
      rw [List.map_cons, List.nodup_cons] at h
      rcases h with ⟨hNew, hRest⟩
      rw [overlay_cons]
      by_cases hName : k = name
      · subst hName
        rw [get?_overlay_of_not_mem _ hNew, get?_insert,
          if_pos rfl, Entries.find?, if_pos rfl,
          Option.some_or]
      · have hNe : name ≠ k := fun e => hName e.symm
        rw [ih _ hRest, get?_insert, if_neg hNe,
          Entries.find?, if_neg hName]

------------------------------------------------------------
-- Repeated writes
------------------------------------------------------------

theorem eraseDups_of_nodup
    {names : List String}
    (h : names.Nodup) :
    names.eraseDups = names := by
  induction names with
  | nil => rfl
  | cons name rest ih =>
      rw [List.nodup_cons] at h
      have hNone :
          rest.filter (fun other => !other == name) = rest := by
        apply List.filter_eq_self.mpr
        intro other hOther
        have hNe : other ≠ name := by
          rintro rfl
          exact h.1 hOther
        simpa using hNe
      rw [List.eraseDups_cons, hNone, ih h.2]

/- A name that occurs in front does not count again. -/
theorem eraseDups_append_cons_of_mem
    {front rest : List String}
    {name : String}
    (h : name ∈ front) :
    (front ++ name :: rest).eraseDups =
      (front ++ rest).eraseDups := by
  rw [List.eraseDups_append, List.eraseDups_append]
  congr 2
  simp [List.removeAll, h]

/- The names stand in the order of their first write. -/
theorem keys_overlay
    (bag : Bag α)
    (writes : List (String × α)) :
    (bag.overlay writes).keys =
      (bag.keys ++ writes.map Prod.fst).eraseDups := by
  induction writes generalizing bag with
  | nil =>
      rw [overlay_nil, List.map_nil, List.append_nil]
      exact (eraseDups_of_nodup bag.keys_nodup).symm
  | cons write rest ih =>
      rw [overlay_cons, ih, keys_insert, List.map_cons]
      by_cases hOld : write.1 ∈ bag.keys
      · rw [if_pos hOld, eraseDups_append_cons_of_mem hOld]
      · rw [if_neg hOld, List.append_assoc,
          List.singleton_append]

/- The last write under a name is the one that counts. -/
theorem get?_overlay_reverse
    (bag : Bag α)
    (writes : List (String × α))
    (name : String) :
    (bag.overlay writes).get? name =
      (Entries.find? name writes.reverse).or
        (bag.get? name) := by
  induction writes generalizing bag with
  | nil => rfl
  | cons write rest ih =>
      rcases write with ⟨k, v⟩
      rw [overlay_cons, ih, get?_insert, List.reverse_cons,
        Entries.find?_append, Option.or_assoc]
      by_cases hName : name = k
      · rw [if_pos hName, Entries.find?, if_pos hName.symm,
          Option.some_or]
      · have hNe : k ≠ name := fun e => hName e.symm
        rw [if_neg hName, Entries.find?, if_neg hNe]
        rfl

/- Where no name occurs twice, the last entry is the only one. -/
theorem find?_reverse
    (bag : Bag α)
    (name : String) :
    Entries.find? name bag.entries.reverse = bag.get? name := by
  have hWritten :=
    get?_overlay_reverse (empty : Bag α) bag.entries name
  rw [← ofList, ofList_entries] at hWritten
  rw [hWritten]
  exact Option.or_none.symm

------------------------------------------------------------
-- Removal
------------------------------------------------------------

theorem get?_erase
    (bag : Bag α)
    (name other : String) :
    (bag.erase name).get? other =
      if other = name then none else bag.get? other :=
  Entries.find?_filter_ne name other bag.entries

theorem get?_foldl_erase
    (bag : Bag α)
    (names : List String)
    (other : String) :
    (names.foldl erase bag).get? other =
      if other ∈ names then none else bag.get? other := by
  induction names generalizing bag with
  | nil => simp
  | cons name rest ih =>
      rw [List.foldl_cons, ih, get?_erase]
      by_cases hName : other = name
      · simp [hName]
      · simp [hName]

------------------------------------------------------------
-- Equality up to order
------------------------------------------------------------

theorem entries_nodup (bag : Bag α) : bag.entries.Nodup := by
  apply List.Pairwise.of_map Prod.fst _ bag.keys_nodup
  intro first second hKeys hSame
  exact hKeys (congrArg Prod.fst hSame)

/-
  Bags with the same values under the same names have the same
  entries, in some order.
-/
theorem perm_of_get?_eq
    {a b : Bag α}
    (h : ∀ name, a.get? name = b.get? name) :
    a.entries.Perm b.entries := by
  rw [List.perm_ext_iff_of_nodup a.entries_nodup
    b.entries_nodup]
  rintro ⟨name, value⟩
  rw [← Entries.find?_eq_some_iff a.keys_nodup,
    ← Entries.find?_eq_some_iff b.keys_nodup]
  have hSame :
      Entries.find? name a.entries =
        Entries.find? name b.entries := h name
  rw [hSame]

/- A bag has no more to it than its names and their values. -/
theorem entries_eq_filterMap (bag : Bag α) :
    bag.entries =
      bag.keys.filterMap fun name =>
        (bag.get? name).map fun value => (name, value) := by
  have hEntry :
      ∀ entry ∈ bag.entries,
        (bag.get? entry.1).map (fun value => (entry.1, value)) =
          some entry := by
    intro entry hEntry
    have hFound :=
      (Entries.find?_eq_some_iff bag.keys_nodup entry.1
        entry.2).mpr hEntry
    rw [get?, hFound]
    rfl
  rw [keys, List.filterMap_map]
  symm
  calc
    bag.entries.filterMap _ = bag.entries.filterMap some :=
      List.filterMap_congr hEntry
    _ = bag.entries := List.filterMap_some

/- Names and values determine a bag. -/
theorem ext_get?
    {a b : Bag α}
    (hKeys : a.keys = b.keys)
    (hGet : ∀ name, a.get? name = b.get? name) :
    a = b := by
  apply ext
  rw [entries_eq_filterMap a, entries_eq_filterMap b, hKeys]
  simp only [hGet]

/- A write that is overwritten by later ones does not matter. -/
theorem overlay_insert_of_mem
    (bag : Bag α)
    {name : String}
    (first second : α)
    {writes : List (String × α)}
    (h : name ∈ writes.map Prod.fst) :
    (bag.insert name first).overlay writes =
      (bag.insert name second).overlay writes := by
  have hSome :
      (Entries.find? name writes.reverse).isSome = true := by
    rw [Entries.find?_isSome_iff, List.map_reverse,
      List.mem_reverse]
    exact h
  apply ext_get?
  · rw [keys_overlay, keys_overlay, keys_insert, keys_insert]
  · intro other
    rw [get?_overlay_reverse, get?_overlay_reverse, get?_insert,
      get?_insert]
    by_cases hOther : other = name
    · rw [hOther, Option.or_of_isSome hSome,
        Option.or_of_isSome hSome]
    · rw [if_neg hOther, if_neg hOther]

end Bag

end MapStyle
