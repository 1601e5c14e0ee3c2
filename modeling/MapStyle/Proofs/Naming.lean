import Mathlib.Data.List.Infix
import MapStyle.Failure
import MapStyle.Proofs.Scanning
import MapStyle.Text.Alphabetic

/-
  Names that are made of a root and a path: segments that are
  set apart by two underscores each. As the root does not
  contain two underscores in a row, and no segment contains
  any, a name says what root and path it was made of.

  Key definitions include:
    * `Naming.name`
    * `Naming.IsRoot`
    * `Naming.IsSegment`

  Main statements:
    * `Text.alphabetic_injective`
    * `countText_injective`
    * `Naming.name_injective`
-/

namespace MapStyle

------------------------------------------------------------
-- Words
------------------------------------------------------------

namespace Text

theorem letter_injective
    {i j : Nat}
    (hI : i < 26)
    (hJ : j < 26)
    (h : letter i = letter j) : i = j := by
  have hAll :
      ∀ i < 26, ∀ j < 26, letter i = letter j → i = j := by
    decide +kernel
  exact hAll i hI j hJ h

/- Letters are no digits and no underscores. -/
theorem letter_plain
    {i : Nat}
    (h : i < 26) :
    letter i ≠ '_' ∧ (letter i).isDigit = false := by
  have hAll :
      ∀ i < 26,
        letter i ≠ '_' ∧ (letter i).isDigit = false := by
    decide +kernel
  exact hAll i h

theorem exists_letter_of_mem_alphabeticRev
    {n : Nat}
    {c : Char}
    (h : c ∈ alphabeticRev n) :
    ∃ i < 26, c = letter i := by
  induction n using alphabeticRev.induct with
  | case1 n hShort =>
      rw [alphabeticRev, if_pos hShort] at h
      exact ⟨n, hShort, List.mem_singleton.mp h⟩
  | case2 n hLong ih =>
      rw [alphabeticRev, if_neg hLong] at h
      rcases List.mem_cons.mp h with rfl | hRest
      · exact ⟨n % 26, Nat.mod_lt _ (by decide), rfl⟩
      · exact ih hRest

/- No number past the last letter has a word of one letter. -/
theorem alphabeticRev_ne_nil (n : Nat) :
    alphabeticRev n ≠ [] := by
  rw [alphabeticRev]
  split
  · exact List.cons_ne_nil _ _
  · exact List.cons_ne_nil _ _

/- Different numbers have different words. -/
theorem alphabeticRev_injective
    {n m : Nat}
    (h : alphabeticRev n = alphabeticRev m) : n = m := by
  induction n using alphabeticRev.induct generalizing m with
  | case1 n hShort =>
      rw [alphabeticRev, if_pos hShort, alphabeticRev] at h
      split at h
      · next hAlso =>
          exact letter_injective hShort hAlso (List.cons.inj h).1
      · exact absurd (List.cons.inj h).2.symm
          (alphabeticRev_ne_nil _)
  | case2 n hLong ih =>
      rw [alphabeticRev, if_neg hLong, alphabeticRev.eq_def m] at h
      split at h
      · exact absurd (List.cons.inj h).2
          (alphabeticRev_ne_nil _)
      · next hAlso =>
          rcases List.cons.inj h with ⟨hHead, hTail⟩
          have hRest := ih hTail
          have hLast :=
            letter_injective (Nat.mod_lt _ (by decide))
              (Nat.mod_lt _ (by decide)) hHead
          omega

theorem alphabetic_injective
    {n m : Nat}
    (h : alphabetic n = alphabetic m) : n = m :=
  alphabeticRev_injective (List.reverse_inj.mp h)

end Text

/- Different numbers have different numerals. -/
theorem countText_injective
    {n m : Nat}
    (h : countText n = countText m) : n = m := by
  have hDigits := String.ofList_injective h
  have hValue := congrArg Scanner.decimalValue hDigits
  rw [Scanner.decimalValue_naturalText,
    Scanner.decimalValue_naturalText] at hValue
  exact hValue

------------------------------------------------------------
-- Segments
------------------------------------------------------------

namespace Naming

/- A segment of a path contains no underscore. -/
def IsSegment (segment : String) : Prop :=
  '_' ∉ segment.toList

/- A root does not contain two underscores in a row. -/
def IsRoot (root : String) : Prop :=
  ¬ ['_', '_'] <:+: root.toList

instance (root : String) : Decidable (IsRoot root) := by
  unfold IsRoot
  infer_instance

/- The segment of a sibling. -/
def siblingSegment (index : Nat) : String :=
  String.ofList (Text.alphabetic index)

theorem isSegment_countText (n : Nat) :
    IsSegment (countText n) := by
  intro h
  unfold countText at h
  rw [String.toList_ofList] at h
  have hDigit := Scanner.isDigit_of_mem_naturalText h
  exact absurd hDigit (by decide)

theorem isSegment_siblingSegment (index : Nat) :
    IsSegment (siblingSegment index) := by
  intro h
  unfold siblingSegment Text.alphabetic at h
  rw [String.toList_ofList, List.mem_reverse] at h
  rcases Text.exists_letter_of_mem_alphabeticRev h with
    ⟨i, hLetter, hSame⟩
  exact (Text.letter_plain hLetter).1 hSame.symm

theorem siblingSegment_injective
    {i j : Nat}
    (h : siblingSegment i = siblingSegment j) : i = j :=
  Text.alphabetic_injective (String.ofList_injective h)

/- Children are counted in digits, siblings in letters. -/
theorem siblingSegment_ne_countText (index n : Nat) :
    siblingSegment index ≠ countText n := by
  intro h
  have hSame := String.ofList_injective h
  rcases List.exists_mem_of_ne_nil _
      (Text.alphabetic_ne_nil index) with
    ⟨c, hWord⟩
  have hDigit : c.isDigit = true := by
    rw [hSame] at hWord
    exact Scanner.isDigit_of_mem_naturalText hWord
  unfold Text.alphabetic at hWord
  rw [List.mem_reverse] at hWord
  rcases Text.exists_letter_of_mem_alphabeticRev hWord with
    ⟨i, hLetter, rfl⟩
  rw [(Text.letter_plain hLetter).2] at hDigit
  cases hDigit

------------------------------------------------------------
-- Names
------------------------------------------------------------

/- The name of a root and a path, the last segment first. -/
def name (root : String) : List String → String
  | [] => root
  | segment :: path => name root path ++ "__" ++ segment

/- The path of a part is a continuation of that of the whole. -/
theorem name_append
    (root : String)
    (inner outer : List String) :
    name root (inner ++ outer) =
      name (name root outer) inner := by
  induction inner with
  | nil => rfl
  | cons segment path ih =>
      rw [List.cons_append, name, ih, name]

/- What comes after the last of some mark is determined. -/
theorem append_cons_injective
    {α : Type}
    {mark : α}
    {first second rest other : List α}
    (hRest : mark ∉ rest)
    (hOther : mark ∉ other)
    (h : first ++ mark :: rest = second ++ mark :: other) :
    first = second ∧ rest = other := by
  induction first generalizing second with
  | nil =>
      cases second with
      | nil =>
          exact ⟨rfl, (List.cons.inj h).2⟩
      | cons head tail =>
          have hTail := (List.cons.inj h).2
          rw [hTail] at hRest
          exact absurd
            (List.mem_append_right _ List.mem_cons_self) hRest
  | cons head tail ih =>
      cases second with
      | nil =>
          have hTail := (List.cons.inj h).2
          rw [← hTail] at hOther
          exact absurd
            (List.mem_append_right _ List.mem_cons_self) hOther
      | cons head' tail' =>
          rcases List.cons.inj h with ⟨rfl, hTail⟩
          rcases ih hTail with ⟨rfl, rfl⟩
          exact ⟨rfl, rfl⟩

theorem toList_name_cons
    (root segment : String)
    (path : List String) :
    (name root (segment :: path)).toList =
      ((name root path).toList ++ ['_'])
        ++ '_' :: segment.toList := by
  rw [name]
  simp [String.toList_append]

/- A longer name contains two underscores in a row. -/
theorem not_isRoot_name_cons
    (root segment : String)
    (path : List String) :
    ¬ IsRoot (name root (segment :: path)) := by
  intro h
  apply h
  rw [toList_name_cons]
  exact
    ⟨(name root path).toList, segment.toList, by simp⟩

/- A name says what root and path it was made of. -/
theorem name_injective
    {root other : String}
    {path path' : List String}
    (hRoot : IsRoot root)
    (hOther : IsRoot other)
    (hPath : ∀ segment ∈ path, IsSegment segment)
    (hPath' : ∀ segment ∈ path', IsSegment segment)
    (h : name root path = name other path') :
    root = other ∧ path = path' := by
  induction path generalizing path' with
  | nil =>
      cases path' with
      | nil => exact ⟨h, rfl⟩
      | cons segment rest =>
          have hLong := not_isRoot_name_cons other segment rest
          rw [← h] at hLong
          exact absurd hRoot hLong
  | cons segment rest ih =>
      cases path' with
      | nil =>
          have hLong := not_isRoot_name_cons root segment rest
          rw [h] at hLong
          exact absurd hOther hLong
      | cons segment' rest' =>
          rw [List.forall_mem_cons] at hPath hPath'
          have hChars := congrArg String.toList h
          rw [toList_name_cons, toList_name_cons] at hChars
          rcases append_cons_injective hPath.1 hPath'.1 hChars
            with ⟨hFront, hSegment⟩
          have hShorter :=
            String.toList_injective
              (List.append_cancel_right hFront)
          rcases ih hPath.2 hPath'.2 hShorter with ⟨rfl, rfl⟩
          rw [String.toList_injective hSegment]
          exact ⟨rfl, rfl⟩

end Naming

end MapStyle
