/-
  This file defines bags: finite maps from names to values
  that remember the order in which the names were first
  written.

  Key definitions include:
    * `Bag`
    * `Bag.get?`
    * `Bag.insert`
    * `Bag.overlay`
    * `Bag.ofList`
    * `Bag.erase`

  The main statements describe each operation through
  `get?` and `keys`.
-/

namespace MapStyle

------------------------------------------------------------
-- Entry lists
------------------------------------------------------------

namespace Entries

variable {α : Type}

/- The value that stands under a name, if the name occurs. -/
def find? (name : String) : List (String × α) → Option α
  | [] => none
  | (k, v) :: rest =>
      if k = name then some v else find? name rest

/-
  Write a value under a name: in place when the name occurs,
  else at the end.
-/
def put
    (name : String)
    (value : α) : List (String × α) → List (String × α)
  | [] => [(name, value)]
  | (k, v) :: rest =>
      if k = name then
        (k, value) :: rest
      else
        (k, v) :: put name value rest

/- Writing adds a new name at the end and moves no old one. -/
theorem keys_put
    (name : String)
    (value : α)
    (entries : List (String × α)) :
    (put name value entries).map Prod.fst =
      if name ∈ entries.map Prod.fst then
        entries.map Prod.fst
      else
        entries.map Prod.fst ++ [name] := by
  induction entries with
  | nil => simp [put]
  | cons entry rest ih =>
      obtain ⟨k, v⟩ := entry
      by_cases hk : k = name
      · simp [put, hk]
      · have hne : name ≠ k := fun h => hk h.symm
        by_cases hmem : name ∈ rest.map Prod.fst
        · simp only [put, hk, ↓reduceIte, List.map_cons, ih,
            hmem, List.mem_cons, or_true]
        · simp only [put, hk, ↓reduceIte, List.map_cons, ih,
            hmem, List.mem_cons, hne, or_false,
            List.cons_append]

/- Writing keeps the names distinct. -/
theorem nodup_put
    (name : String)
    (value : α)
    (entries : List (String × α))
    (h : (entries.map Prod.fst).Nodup) :
    ((put name value entries).map Prod.fst).Nodup := by
  rw [keys_put]
  split
  · exact h
  · next hmem =>
      rw [List.nodup_append]
      refine ⟨h, by simp, ?_⟩
      intro a ha b hb hab
      rw [List.mem_singleton] at hb
      exact hmem (hb ▸ hab ▸ ha)

/- What stands under a name after a write. -/
theorem find?_put
    (name other : String)
    (value : α)
    (entries : List (String × α)) :
    find? other (put name value entries) =
      if other = name then some value
      else find? other entries := by
  induction entries with
  | nil =>
      by_cases h : other = name
      · simp [put, find?, h]
      · have hne : name ≠ other := fun e => h e.symm
        simp [put, find?, h, hne]
  | cons entry rest ih =>
      obtain ⟨k, v⟩ := entry
      by_cases hk : k = name
      · subst hk
        by_cases h : other = k
        · simp [put, find?, h]
        · have hne : k ≠ other := fun e => h e.symm
          simp [put, find?, h, hne]
      · by_cases h : k = other
        · subst h
          simp [put, find?, hk]
        · simp [put, find?, hk, h, ih]

/- A name has a value exactly when it occurs. -/
theorem find?_isSome_iff
    (name : String)
    (entries : List (String × α)) :
    (find? name entries).isSome = true ↔
      name ∈ entries.map Prod.fst := by
  induction entries with
  | nil => simp [find?]
  | cons entry rest ih =>
      obtain ⟨k, v⟩ := entry
      by_cases hk : k = name
      · simp [find?, hk]
      · have hne : name ≠ k := fun e => hk e.symm
        simp only [find?, hk, ↓reduceIte, List.map_cons,
          List.mem_cons, hne, false_or]
        exact ih

end Entries

------------------------------------------------------------
-- Bags
------------------------------------------------------------

/- A list of entries in which no name occurs twice. -/
structure Bag (α : Type) where
  entries : List (String × α)
  keys_nodup : (entries.map Prod.fst).Nodup

namespace Bag

variable {α β : Type}

/- The bag without entries. -/
def empty : Bag α :=
  ⟨[], List.nodup_nil⟩

instance : Inhabited (Bag α) :=
  ⟨empty⟩

instance : EmptyCollection (Bag α) :=
  ⟨empty⟩

/- The names, in the order of their first writing. -/
def keys (bag : Bag α) : List String :=
  bag.entries.map Prod.fst

/- The number of entries. -/
def size (bag : Bag α) : Nat :=
  bag.entries.length

/- Whether the bag has no entry. -/
def isEmpty (bag : Bag α) : Bool :=
  bag.entries.isEmpty

/- The value under a name. -/
def get?
    (bag : Bag α)
    (name : String) : Option α :=
  Entries.find? name bag.entries

/- Whether a name occurs. -/
def contains
    (bag : Bag α)
    (name : String) : Bool :=
  (bag.get? name).isSome

/-
  Write a value under a name; a name that occurs keeps its
  place.
-/
def insert
    (bag : Bag α)
    (name : String)
    (value : α) : Bag α :=
  ⟨Entries.put name value bag.entries,
    Entries.nodup_put name value bag.entries bag.keys_nodup⟩

/- Write a list of entries, one after another. -/
def overlay
    (bag : Bag α)
    (entries : List (String × α)) : Bag α :=
  entries.foldl (fun b e => b.insert e.1 e.2) bag

/- The bag that results from writing the given entries. -/
def ofList (entries : List (String × α)) : Bag α :=
  empty.overlay entries

/- Remove a name; the others keep their order. -/
def erase
    (bag : Bag α)
    (name : String) : Bag α :=
  ⟨bag.entries.filter (fun e => e.1 ≠ name),
    List.Sublist.nodup
      (List.Sublist.map Prod.fst List.filter_sublist)
      bag.keys_nodup⟩

@[ext]
theorem ext
    {a b : Bag α}
    (h : a.entries = b.entries) : a = b := by
  cases a
  cases b
  cases h
  rfl

theorem get?_insert
    (bag : Bag α)
    (name other : String)
    (value : α) :
    (bag.insert name value).get? other =
      if other = name then some value
      else bag.get? other :=
  Entries.find?_put name other value bag.entries

theorem keys_insert
    (bag : Bag α)
    (name : String)
    (value : α) :
    (bag.insert name value).keys =
      if name ∈ bag.keys then bag.keys
      else bag.keys ++ [name] :=
  Entries.keys_put name value bag.entries

theorem contains_iff
    (bag : Bag α)
    (name : String) :
    bag.contains name = true ↔ name ∈ bag.keys :=
  Entries.find?_isSome_iff name bag.entries

end Bag

end MapStyle
