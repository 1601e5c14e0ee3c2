import Mathlib.Algebra.Group.Nat.Defs
import MapStyle.Proofs.WrittenParts

/-
  Integers that are written as colors. Their text reads back
  as the integer; it has six digits, and is the text of the
  color that the integer stands for, as long as the integer
  stands for a color at all. Larger integers are written with
  as many digits as they need.

  Key definitions include:
    * `Text.lowerDigits`
    * `Color.IsNumeral`

  Main statements:
    * `Text.hexadecimalValue?_padded`
    * `Text.length_hexadecimal_le_iff`
    * `Color.isNumeral_numberText`
    * `Layer.Reachable.color_written`
-/

namespace MapStyle

------------------------------------------------------------
-- Hexadecimal digits
------------------------------------------------------------

namespace Text

/- The digits in which numbers are written. -/
def lowerDigits : List Char :=
  "0123456789abcdef".toList

theorem hexDigit_mem :
    ∀ value, value < 16 → hexDigit value ∈ lowerDigits := by
  decide

theorem hexadecimal_of_lt
    {n : Nat}
    (h : n < 16) : hexadecimal n = [hexDigit n] := by
  unfold hexadecimal
  rw [hexadecimalRev, if_pos h]
  rfl

/- The last digit stands behind those of what is left. -/
theorem hexadecimal_of_le
    {n : Nat}
    (h : 16 ≤ n) :
    hexadecimal n =
      hexadecimal (n / 16) ++ [hexDigit (n % 16)] := by
  unfold hexadecimal
  rw [hexadecimalRev, if_neg (by omega), List.reverse_cons]

theorem hexadecimal_ne_nil (n : Nat) :
    hexadecimal n ≠ [] := by
  by_cases h : n < 16
  · rw [hexadecimal_of_lt h]
    exact List.cons_ne_nil _ _
  · rw [hexadecimal_of_le (by omega)]
    exact List.append_ne_nil_of_right_ne_nil _
      (List.cons_ne_nil _ _)

theorem mem_lowerDigits_of_mem_hexadecimal
    (n : Nat) :
    ∀ c ∈ hexadecimal n, c ∈ lowerDigits := by
  induction n using hexadecimalRev.induct with
  | case1 n h =>
      rw [hexadecimal_of_lt h]
      simpa using hexDigit_mem n h
  | case2 n h ih =>
      rw [Nat.not_lt] at h
      rw [hexadecimal_of_le h]
      intro c hc
      rcases List.mem_append.mp hc with hFront | hLast
      · exact ih c hFront
      · rw [List.mem_singleton.mp hLast]
        exact hexDigit_mem _ (by omega)

/- A width is enough for the numbers below a power. -/
theorem length_hexadecimal_le_iff
    {n width : Nat}
    (hWidth : 0 < width) :
    (hexadecimal n).length ≤ width ↔ n < 16 ^ width := by
  induction n using hexadecimalRev.induct
    generalizing width with
  | case1 n h =>
      have hPow : 16 ^ 1 ≤ 16 ^ width :=
        Nat.pow_le_pow_right (by decide) hWidth
      rw [hexadecimal_of_lt h, List.length_singleton]
      omega
  | case2 n h ih =>
      rw [Nat.not_lt] at h
      rcases width with _ | width
      · cases hWidth
      · rw [hexadecimal_of_le h, List.length_append,
          List.length_singleton, Nat.add_le_add_iff_right]
        by_cases hRest : 0 < width
        · rw [ih hRest, Nat.pow_succ,
            Nat.div_lt_iff_lt_mul (by decide)]
        · have hZero : width = 0 := by omega
          have hSome :=
            List.length_pos_iff.mpr (hexadecimal_ne_nil (n / 16))
          subst hZero
          omega

------------------------------------------------------------
-- Reading digits
------------------------------------------------------------

/-
  Digits are read from the left, so a text may be cut
  anywhere.
-/
theorem hexadecimalValueFrom?_append
    (front back : List Char)
    (value : Nat) :
    hexadecimalValueFrom? value (front ++ back) =
      (hexadecimalValueFrom? value front).bind
        fun read => hexadecimalValueFrom? read back := by
  induction front generalizing value with
  | nil => rfl
  | cons c rest ih =>
      rw [List.cons_append, hexadecimalValueFrom?,
        hexadecimalValueFrom?]
      cases hexDigitValue? c with
      | none => rfl
      | some d => exact ih _

/- A natural is read back from its digits. -/
theorem hexadecimalValueFrom?_zero_hexadecimal (n : Nat) :
    hexadecimalValueFrom? 0 (hexadecimal n) = some n := by
  induction n using hexadecimalRev.induct with
  | case1 n h =>
      rw [hexadecimal_of_lt h, hexadecimalValueFrom?,
        hexDigitValue?_hexDigit n h]
      simp [hexadecimalValueFrom?]
  | case2 n h ih =>
      rw [Nat.not_lt] at h
      rw [hexadecimal_of_le h, hexadecimalValueFrom?_append, ih,
        Option.bind_some, hexadecimalValueFrom?,
        hexDigitValue?_hexDigit _ (by omega)]
      simp only [hexadecimalValueFrom?, Option.some.injEq]
      omega

theorem hexadecimalValueFrom?_zeros (count : Nat) :
    hexadecimalValueFrom? 0 (List.replicate count '0') =
      some 0 := by
  induction count with
  | zero => rfl
  | succ count ih =>
      rw [List.replicate_succ]
      exact ih

/- Zeros in front do not change the number that is read. -/
theorem hexadecimalValue?_padded
    (width n : Nat) :
    hexadecimalValue? (hexadecimalPadded width n) = some n := by
  have hRead :
      hexadecimalValueFrom? 0 (hexadecimalPadded width n) =
        some n := by
    unfold hexadecimalPadded
    rw [hexadecimalValueFrom?_append,
      hexadecimalValueFrom?_zeros, Option.bind_some]
    exact hexadecimalValueFrom?_zero_hexadecimal n
  unfold hexadecimalValue?
  split
  · next hNil =>
      unfold hexadecimalPadded at hNil
      exact
        absurd (List.append_eq_nil_iff.mp hNil).2
          (hexadecimal_ne_nil n)
  · exact hRead

theorem length_hexadecimalPadded
    (width n : Nat) :
    (hexadecimalPadded width n).length =
      max width (hexadecimal n).length := by
  unfold hexadecimalPadded
  rw [List.length_append, List.length_replicate]
  omega

theorem mem_lowerDigits_of_mem_padded
    (width n : Nat) :
    ∀ c ∈ hexadecimalPadded width n, c ∈ lowerDigits := by
  intro c hc
  rcases List.mem_append.mp hc with hZero | hDigit
  · rw [(List.mem_replicate.mp hZero).2]
    decide
  · exact mem_lowerDigits_of_mem_hexadecimal n c hDigit

end Text

------------------------------------------------------------
-- Numbers as colors
------------------------------------------------------------

namespace Color

/- The three channels hold all digits of a color. -/
theorem toNat_ofNat
    {n : Nat}
    (h : n ≤ maxNat) : (ofNat n).toNat = n := by
  unfold maxNat at h
  simp only [ofNat, toNat, UInt8.toNat_ofNat']
  omega

/-
  A text stands for a number as a color: behind a hash there
  are digits that read back as the number, six of them if the
  number is small enough, and more if it is not.
-/
structure IsNumeral (text : String) (n : Nat) : Prop where
  digits :
    ∃ digits : List Char,
      text = String.ofList ('#' :: digits) ∧
        (∀ c ∈ digits, c ∈ Text.lowerDigits) ∧
          Text.hexadecimalValue? digits = some n ∧
            6 ≤ digits.length ∧
              (digits.length = 6 ↔ n ≤ maxNat)

theorem isNumeral_numberText (n : Nat) :
    IsNumeral (String.ofList (numberText n)) n := by
  have hLength := Text.length_hexadecimalPadded 6 n
  have hWidth : 0 < 6 := by decide
  have hSix := Text.length_hexadecimal_le_iff (n := n) hWidth
  refine
    ⟨Text.hexadecimalPadded 6 n, rfl,
      Text.mem_lowerDigits_of_mem_padded 6 n,
      Text.hexadecimalValue?_padded 6 n, ?_, ?_⟩
  · omega
  · unfold maxNat
    rw [hLength]
    omega

/- The text of an integer that stands for a color. -/
theorem map_text_ofInt?
    {n : Int64}
    (h : 0 ≤ n.toInt) :
    (ofInt? n).map text =
      if n.toInt ≤ maxNat then
        some (String.ofList (numberText n.toInt.toNat))
      else
        none := by
  unfold ofInt?
  by_cases hMax : n.toInt ≤ maxNat
  · have hNat : n.toInt.toNat ≤ maxNat := by omega
    rw [if_pos ⟨h, hMax⟩, if_pos hMax, Option.map_some, text,
      toNat_ofNat hNat]
  · rw [if_neg (fun hBoth => hMax hBoth.2), if_neg hMax]
    rfl

end Color

------------------------------------------------------------
-- Colors of layers
------------------------------------------------------------

namespace Layer

/- All known properties with the name of a color are of paint. -/
theorem eq_paint_of_isColorName
    {key : String}
    {cls : PropertyClass}
    (hKept : Spelling.IsKept key)
    (hColor : isColorName (Spelling.hyphenated key) = true)
    (hClass : Property.classify? key = some cls) :
    cls = .paint := by
  have hNone :
      ∀ name ∈ Property.layout ++ Property.topLevel ++
          Property.hidden,
        isColorName (Spelling.hyphenated name) = false := by
    decide +kernel
  have hOther :
      key ∉ Property.layout ++ Property.topLevel ++
        Property.hidden := by
    intro hMem
    rw [hNone key hMem] at hColor
    cases hColor
  simp only [List.mem_append, not_or] at hOther
  rcases hOther with ⟨⟨hLayout, hTop⟩, hHidden⟩
  unfold Property.classify? at hClass
  rw [hKept] at hClass
  simp only [List.contains_iff_mem, hLayout, hTop, hHidden,
    ↓reduceIte] at hClass
  split at hClass
  · cases hClass
    rfl
  · cases hClass

variable {layer : Layer}

/-
  A layer that can be written and has a property with the name
  of a color is not left out, and the property stands in the
  paint part.
-/
theorem Kept.part?_paint_of_color
    (h : layer.Kept)
    {result : Option (Bag Json)}
    (hWrite : layer.write? = .ok result)
    {key : String}
    {value : Value}
    (hColor : isColorName (Spelling.hyphenated key) = true)
    (hGet : layer.properties.get? key = some value) :
    ∃ out members,
      result = some out ∧
        layer.part? .paint = some (.object members) ∧
          Entries.find? (Spelling.hyphenated key) members =
            some
              (writeProperty (Spelling.hyphenated key)
                value) := by
  have hKey : key ∈ layer.properties.keys := by
    rw [← Bag.contains_iff, Bag.contains, hGet]
    rfl
  have hZoom : key ≠ "zoom" := by
    rintro rfl
    revert hColor
    decide
  have hSound : ¬ (layer.HasUnknown ∨ layer.HasConflict) := by
    rw [← exists_write?_eq_error_iff, hWrite]
    rintro ⟨e, hError⟩
    cases hError
  have hClass : Property.classify? key = some .paint := by
    cases hFound : Property.classify? key with
    | none =>
        exact
          absurd (Or.inl ⟨key, hKey, hZoom, hFound⟩) hSound
    | some cls =>
        rw [eq_paint_of_isColorName (h.properties key hKey)
          hColor hFound]
  rcases exists_gathered hSound with
    ⟨parts, hParts, hWritten⟩
  rw [hWrite, Except.ok.injEq] at hWritten
  have hSome : parts.written? layer ≠ none := by
    rw [ne_eq, h.written?_eq_none_iff hParts, Classical.not_not]
    exact ⟨key, hKey, Or.inr hClass⟩
  rcases Option.ne_none_iff_exists'.mp hSome with ⟨out, hOut⟩
  have hPart : ("paint", PropertyClass.paint) ∈ partClasses := by
    decide
  rcases h.shownIn_part? hPart key value hGet hClass with
    ⟨members, hMembers, hFound⟩
  exact
    ⟨out, members, hWritten.trans hOut, hMembers, hFound⟩

/-
  How integers are written under the names of colors, in every
  reachable layer that can be written. They stand in the paint
  part, which is written unless a field has its name. The text
  reads back as the integer. It has six digits, and is the
  text of the color that the integer stands for, exactly as
  long as it stands for one; a larger integer takes more
  digits, and stands for no color.
-/
theorem Reachable.color_written
    (h : layer.Reachable)
    {result : Option (Bag Json)}
    (hWrite : layer.write? = .ok result)
    {key : String}
    {n : Int64}
    (hColor : isColorName (Spelling.hyphenated key) = true)
    (hGet : layer.properties.get? key = some (.int n))
    (hNonneg : 0 ≤ n.toInt) :
    ∃ out members text,
      result = some out ∧
        layer.part? .paint = some (.object members) ∧
        (layer.properties.get? "paint" = none →
          out.get? "paint" = some (.object members)) ∧
        Entries.find? (Spelling.hyphenated key) members =
          some (.text text) ∧
        Color.IsNumeral text n.toInt.toNat ∧
        (Color.ofInt? n).map Color.text =
          if n.toInt ≤ Color.maxNat then
            some text
          else
            none := by
  have hKept := preserved_kept.reachable h
  rcases hKept.part?_paint_of_color hWrite hColor hGet with
    ⟨out, members, rfl, hPart, hFound⟩
  refine
    ⟨out, members, _, rfl, hPart, ?_, ?_,
      Color.isNumeral_numberText n.toInt.toNat,
      Color.map_text_ofInt? hNonneg⟩
  · intro hFree
    have hClass :
        ("paint", PropertyClass.paint) ∈ partClasses := by
      decide
    have hMember := hKept.get?_part_of_write? hWrite hClass
    unfold given? at hMember
    rw [hFree, Option.map_none, Option.none_or, hPart]
      at hMember
    exact hMember
  · rw [hFound]
    exact congrArg some (if_pos ⟨hNonneg, hColor⟩)

/- The integer that a layer has under a name. -/
def integer?
    (layer : Layer)
    (name : String) : Option Int64 :=
  match layer.properties.get? name with
  | some (.int n) => some n
  | _ => none

theorem get?_of_integer?
    {name : String}
    {n : Int64}
    (h : layer.integer? name = some n) :
    layer.properties.get? name = some (.int n) := by
  unfold integer? at h
  split at h
  · next hGet =>
      cases h
      exact hGet
  · cases h

/- The text under a name in the paint part of a written layer. -/
def paintText?
    (layer : Layer)
    (name : String) : Option String :=
  match layer.write? with
  | .ok (some out) =>
      match out.get? "paint" with
      | some (.object members) =>
          match Entries.find? name members with
          | some (.text s) => some s
          | _ => none
      | _ => none
  | _ => none

/- The text of a color in the document that is written. -/
theorem exists_of_paintText?
    {name text : String}
    (h : layer.paintText? name = some text) :
    ∃ out members,
      layer.write? = .ok (some out) ∧
        out.get? "paint" = some (.object members) ∧
          Entries.find? name members = some (.text text) := by
  unfold paintText? at h
  split at h
  · next out hWrite =>
      split at h
      · next members hPaint =>
          split at h
          · next hFound =>
              cases h
              exact ⟨out, members, hWrite, hPaint, hFound⟩
          · cases h
      · cases h
  · cases h

/- A color below a sixteenth of the largest. -/
def shortColor : String :=
  "layer :a \x7b line_color 0xff7f \x7d"

/- Zeros fill the text, as for the color itself. -/
theorem Reachable.color_written_shortColor :
    ∃ t layer out members,
      Sheet.load (Texts.ofList []) shortColor Document.fresh =
          .ok () t ∧
        t.sheet.layers[0]? = some layer ∧
        layer.Reachable ∧
        layer.properties.get? "line_color" =
          some (.int 0xff7f) ∧
        layer.write? = .ok (some out) ∧
        out.get? "paint" = some (.object members) ∧
        Entries.find? "line-color" members =
          some (.text "#00ff7f") ∧
        Color.IsNumeral "#00ff7f" 0xff7f ∧
        (Color.ofInt? 0xff7f).map Color.text =
          some "#00ff7f" := by
  have hCheck :
      ((Sheet.layersOf? shortColor).bind (·[0]?)).map
          (fun layer =>
            (layer.paintText? "line-color",
              layer.integer? "line_color",
              (layer.properties.get? "paint").isNone)) =
        some (some "#00ff7f", some 0xff7f, true) := by
    decide +kernel
  rcases Option.map_eq_some_iff.mp hCheck with
    ⟨layer, hFound, hLayer⟩
  rcases exists_load_of_getElem? hFound with
    ⟨t, hLoad, hIndex, hReach⟩
  simp only [Prod.mk.injEq] at hLayer
  rcases hLayer with ⟨hText, hInteger, hFree⟩
  have hGet := get?_of_integer? hInteger
  rcases exists_of_paintText? hText with
    ⟨out, members, hWrite, hPaint, hMember⟩
  have hColor :
      isColorName (Spelling.hyphenated "line_color") = true := by
    decide
  rcases hReach.color_written hWrite hColor hGet (by decide) with
    ⟨_, _, text, hOut, _, hShown, hOwn, hNumeral, hSame⟩
  cases hOut
  rw [hShown (Option.isNone_iff_eq_none.mp hFree),
    Option.some.injEq, Json.object.injEq] at hPaint
  subst hPaint
  have hName :
      Spelling.hyphenated "line_color" = "line-color" := by
    decide
  rw [hName, hMember, Option.some.injEq, Json.text.injEq]
    at hOwn
  subst hOwn
  rw [if_pos (by decide)] at hSame
  exact
    ⟨t, layer, out, _, hLoad, hIndex, hReach, hGet, hWrite,
      hShown (Option.isNone_iff_eq_none.mp hFree), hMember,
      hNumeral, hSame⟩

/- The smallest integer that stands for no color. -/
def largeColor : String :=
  "layer :a \x7b line_color 0x1000000 \x7d"

/- It is written with seven digits. -/
theorem largeColor_seven_digits :
    ∃ t layer out members,
      Sheet.load (Texts.ofList []) largeColor Document.fresh =
          .ok () t ∧
        t.sheet.layers[0]? = some layer ∧
        layer.Reachable ∧
        layer.properties.get? "line_color" =
          some (.int 0x1000000) ∧
        layer.write? = .ok (some out) ∧
        out.get? "paint" = some (.object members) ∧
        Entries.find? "line-color" members =
          some (.text "#1000000") ∧
        "#1000000".length = 8 ∧
        Color.ofInt? 0x1000000 = none := by
  have hCheck :
      ((Sheet.layersOf? largeColor).bind (·[0]?)).map
          (fun layer =>
            (layer.paintText? "line-color",
              layer.integer? "line_color")) =
        some (some "#1000000", some 0x1000000) := by
    decide +kernel
  rcases Option.map_eq_some_iff.mp hCheck with
    ⟨layer, hFound, hLayer⟩
  rcases exists_load_of_getElem? hFound with
    ⟨t, hLoad, hIndex, hReach⟩
  simp only [Prod.mk.injEq] at hLayer
  rcases hLayer with ⟨hText, hInteger⟩
  rcases exists_of_paintText? hText with
    ⟨out, members, hWrite, hPaint, hMember⟩
  exact
    ⟨t, layer, out, members, hLoad, hIndex, hReach,
      get?_of_integer? hInteger, hWrite, hPaint, hMember,
      by decide, by decide⟩

end Layer

end MapStyle
