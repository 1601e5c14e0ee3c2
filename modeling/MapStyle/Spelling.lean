/-
  This file defines the two spellings of a name. Names that
  differ only in hyphens and underscores are one name: with
  underscores it is kept, with hyphens it is written out.

  Key definitions include:
    * `Spelling.underscored`
    * `Spelling.hyphenated`
-/

namespace MapStyle

namespace Spelling

/- Replace every occurrence of one character by another. -/
def replace
    (old new : Char)
    (name : String) : String :=
  String.ofList
    (name.toList.map fun c => if c = old then new else c)

/- The spelling in which names are kept. -/
def underscored (name : String) : String :=
  replace '-' '_' name

/- The spelling in which names are written out. -/
def hyphenated (name : String) : String :=
  replace '_' '-' name

/- What is replaced by something else is gone. -/
theorem not_mem_replace
    {old new : Char}
    (hNe : old ≠ new)
    (name : String) :
    old ∉ (replace old new name).toList := by
  unfold replace
  rw [String.toList_ofList, List.mem_map]
  rintro ⟨c, _, hc⟩
  split at hc
  · exact hNe hc.symm
  · next hOther => exact hOther hc

/- A kept name holds no hyphen. -/
theorem not_mem_underscored (name : String) :
    '-' ∉ (underscored name).toList :=
  not_mem_replace (by decide) name

end Spelling

end MapStyle
