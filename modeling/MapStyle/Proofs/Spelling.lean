import MapStyle.Meaning

/-
  Kept names, and the properties that a statement can assign.

  Main statements:
    * `Spelling.underscored_underscored`
    * `Spelling.IsKept.eq_of_hyphenated_eq`
    * `Property.IsAssignable`
    * `Meaning.isAssignable_of_property`
    * `Property.IsAssignable.not_mem_hidden`
-/

namespace MapStyle

------------------------------------------------------------
-- Kept names
------------------------------------------------------------

namespace Spelling

/- A name is kept if it is spelled with underscores. -/
def IsKept (name : String) : Prop :=
  underscored name = name

instance (name : String) : Decidable (IsKept name) := by
  unfold IsKept
  infer_instance

/- A kept name is kept once and for all. -/
@[simp] theorem underscored_underscored (name : String) :
    underscored (underscored name) = underscored name := by
  unfold underscored replace
  rw [String.toList_ofList, List.map_map]
  congr 1
  apply List.map_congr_left
  intro c _
  by_cases hHyphen : c = '-'
  · simp [hHyphen]
  · simp [hHyphen]

theorem isKept_underscored (name : String) :
    IsKept (underscored name) :=
  underscored_underscored name

@[simp] theorem underscored_hyphenated (name : String) :
    underscored (hyphenated name) = underscored name := by
  unfold underscored hyphenated replace
  rw [String.toList_ofList, List.map_map]
  congr 1
  apply List.map_congr_left
  intro c _
  by_cases hUnderscore : c = '_'
  · simp [hUnderscore]
  · simp [hUnderscore]

theorem replace_eq_self
    {old : Char}
    {name : String}
    (new : Char)
    (h : old ∉ name.toList) :
    replace old new name = name := by
  unfold replace
  have hChars :
      name.toList.map (fun c => if c = old then new else c) =
        name.toList := by
    refine (List.map_congr_left ?_).trans (List.map_id' _)
    intro c hc
    apply if_neg
    rintro rfl
    exact h hc
  rw [hChars, String.ofList_toList]

/- Without the new character, nothing has been replaced. -/
theorem eq_of_replace_eq
    {old new : Char}
    {name other : String}
    (hOther : new ∉ other.toList)
    (h : replace old new name = other) :
    name = other := by
  have hOld : old ∉ name.toList := by
    intro hMem
    apply hOther
    rw [← h]
    unfold replace
    rw [String.toList_ofList]
    exact List.mem_map.mpr ⟨old, hMem, if_pos rfl⟩
  rw [← h]
  exact (replace_eq_self new hOld).symm

/- A name that is written out holds no underscore. -/
theorem not_mem_hyphenated (name : String) :
    '_' ∉ (hyphenated name).toList :=
  not_mem_replace (by decide) name

theorem hyphenated_eq_self_iff (name : String) :
    hyphenated name = name ↔ '_' ∉ name.toList := by
  constructor
  · intro hSame
    rw [← hSame]
    exact not_mem_hyphenated name
  · exact replace_eq_self '-'

/- Kept names stay apart when they are written out. -/
theorem IsKept.eq_of_hyphenated_eq
    {name other : String}
    (hName : IsKept name)
    (hOther : IsKept other)
    (h : hyphenated name = hyphenated other) :
    name = other := by
  have hSame := congrArg underscored h
  rw [underscored_hyphenated, underscored_hyphenated] at hSame
  exact hName.symm.trans (hSame.trans hOther)

end Spelling

------------------------------------------------------------
-- Assignable properties
------------------------------------------------------------

namespace Property

/- The kept name of a property that a statement assigns. -/
structure IsAssignable (key : String) : Prop where
  kept : Spelling.IsKept key
  settable :
    ∃ cls, classify? key = some cls ∧ cls.isSettable = true

/- The class of a property does not depend on the spelling. -/
@[simp] theorem classify?_underscored (name : String) :
    classify? (Spelling.underscored name) = classify? name := by
  unfold classify?
  rw [Spelling.underscored_underscored]

theorem classify?_of_mem_hidden
    {key : String}
    (h : key ∈ hidden) :
    classify? key = some .hidden := by
  have hAll :
      ∀ name ∈ hidden, classify? name = some .hidden := by
    decide +kernel
  exact hAll key h

/- The hidden properties cannot be assigned. -/
theorem IsAssignable.not_mem_hidden
    {key : String}
    (h : IsAssignable key) : key ∉ hidden := by
  intro hHidden
  rcases h.settable with ⟨cls, hClass, hSettable⟩
  rw [classify?_of_mem_hidden hHidden] at hClass
  cases hClass
  cases hSettable

end Property

namespace Meaning

/- A name that means a property is assigned under a kept name. -/
theorem isAssignable_of_property
    {name : String}
    {cls : PropertyClass}
    (h : ofName name = .property cls) :
    Property.IsAssignable (Spelling.underscored name) := by
  refine ⟨Spelling.isKept_underscored name, cls, ?_⟩
  rw [Property.classify?_underscored]
  unfold ofName at h
  split at h
  · cases h
  · split at h
    · next found hFound =>
        split at h
        · next hSettable =>
            cases h
            exact ⟨hFound, hSettable⟩
        · cases h
    · cases h

end Meaning

end MapStyle
