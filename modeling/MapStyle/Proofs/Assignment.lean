import MapStyle.Proofs.Bag
import MapStyle.Proofs.Spelling
import MapStyle.Layer

/-
  What an assignment does to a layer: inside of a cascade it
  is recorded, else it is written into the properties and may
  settle the render type.

  Main statements:
    * `Layer.set_of_active`
    * `Layer.set_of_inactive`
    * `Layer.set_cases`
    * `Layer.mem_overrides_of_mem_record`
-/

namespace MapStyle

namespace Layer

------------------------------------------------------------
-- Direct assignments
------------------------------------------------------------

/-
  What is settled after a property has been assigned: layout
  and paint properties imply a render type, others do not.
-/
def settledWith
    (layer : Layer)
    (key : String) : Except CompileError (Option Settled) :=
  match Property.classify? key with
  | some cls =>
      if cls.impliesType then
        settle layer.settled layer.id (Spelling.hyphenated key)
      else
        .ok layer.settled
  | none => .ok layer.settled

/- Only the properties and what is settled matter. -/
theorem settledWith_congr
    (layer other : Layer)
    (hProperties : other.properties = layer.properties)
    (hSettled : other.settled = layer.settled)
    (key : String) :
    other.settledWith key = layer.settledWith key := by
  unfold settledWith id
  rw [hProperties, hSettled]

/- Assign a property while no condition is active. -/
theorem set_of_inactive
    {layer : Layer}
    (name : String)
    (value : Value)
    (hActive : layer.active = none) :
    layer.set name value =
      (layer.settledWith (Spelling.underscored name)).map
        fun settled =>
          { layer.put (Spelling.underscored name) value with
            settled := settled } := by
  simp only [set, settledWith, hActive]
  generalize Property.classify? (Spelling.underscored name) =
    class?
  generalize settle layer.settled layer.id
    (Spelling.hyphenated (Spelling.underscored name)) = outcome
  cases class? with
  | none => rfl
  | some cls =>
      cases hType : cls.impliesType with
      | false =>
          simp only [hType]
          rfl
      | true =>
          simp only [hType, if_true]
          cases outcome with
          | error e => rfl
          | ok settled => rfl

/- Assign a property while a condition is active. -/
theorem set_of_active
    {layer : Layer}
    {condition : Expression}
    (name : String)
    (value : Value)
    (hActive : layer.active = some condition) :
    layer.set name value =
      .ok { layer with
        cascades :=
          record layer.cascades condition
            (Spelling.underscored name) value } := by
  unfold set
  rw [hActive]

/-
  A successful assignment records the property under the
  active condition or writes it into the properties.
-/
theorem set_cases
    {layer next : Layer}
    {name : String}
    {value : Value}
    (h : layer.set name value = .ok next) :
    (∃ condition,
      layer.active = some condition ∧
        next =
          { layer with
            cascades :=
              record layer.cascades condition
                (Spelling.underscored name) value }) ∨
      (∃ settled,
        layer.active = none ∧
          layer.settledWith (Spelling.underscored name) =
              .ok settled ∧
            next =
              { layer.put (Spelling.underscored name) value with
                settled := settled }) := by
  cases hActive : layer.active with
  | some condition =>
      rw [set_of_active name value hActive] at h
      cases h
      exact Or.inl ⟨condition, rfl, by rw [hActive]⟩
  | none =>
      rw [set_of_inactive name value hActive] at h
      cases hSettled :
          layer.settledWith (Spelling.underscored name) with
      | error e =>
          rw [hSettled] at h
          cases h
      | ok settled =>
          rw [hSettled] at h
          cases h
          exact Or.inr ⟨settled, rfl, rfl, rfl⟩

------------------------------------------------------------
-- Recorded assignments
------------------------------------------------------------

theorem mem_overrides_of_mem_amendLast
    {condition : Expression}
    {key : String}
    {value : Value}
    {cascades amended : List Cascade}
    (h : amendLast condition key value cascades = some amended)
    {cascade : Cascade}
    (hCascade : cascade ∈ amended)
    {name : String}
    (hName : name ∈ cascade.overrides.keys) :
    name = key ∨
      ∃ old ∈ cascades, name ∈ old.overrides.keys := by
  fun_induction amendLast condition key value cascades
    generalizing amended with
  | case1 => cases h
  | case2 last hSame =>
      cases h
      rw [List.mem_singleton] at hCascade
      subst hCascade
      rw [Bag.mem_keys_insert] at hName
      rcases hName with hOld | hNew
      · exact Or.inr ⟨last, by simp, hOld⟩
      · exact Or.inl hNew
  | case3 => cases h
  | case4 first rest hRest ih =>
      rw [Option.map_eq_some_iff] at h
      rcases h with ⟨amendedRest, hAmended, rfl⟩
      rcases List.mem_cons.mp hCascade with rfl | hLater
      · exact Or.inr ⟨_, List.mem_cons_self, hName⟩
      · rcases ih hAmended hLater with hKey | ⟨old, hOld, hIn⟩
        · exact Or.inl hKey
        · exact Or.inr ⟨old, List.mem_cons_of_mem _ hOld, hIn⟩

/- Recording brings in no other name than its own. -/
theorem mem_overrides_of_mem_record
    {cascades : List Cascade}
    {condition : Expression}
    {key : String}
    {value : Value}
    {cascade : Cascade}
    (hCascade : cascade ∈ record cascades condition key value)
    {name : String}
    (hName : name ∈ cascade.overrides.keys) :
    name = key ∨
      ∃ old ∈ cascades, name ∈ old.overrides.keys := by
  unfold record at hCascade
  cases hAmend : amendLast condition key value cascades with
  | some amended =>
      rw [hAmend] at hCascade
      exact mem_overrides_of_mem_amendLast hAmend hCascade hName
  | none =>
      rw [hAmend] at hCascade
      rcases List.mem_append.mp hCascade with hOld | hNew
      · exact Or.inr ⟨cascade, hOld, hName⟩
      · rw [List.mem_singleton] at hNew
        subst hNew
        rw [Bag.mem_keys_insert] at hName
        rcases hName with hEmpty | hKey
        · cases hEmpty
        · exact Or.inl hKey

end Layer

end MapStyle
