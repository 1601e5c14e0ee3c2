import MapStyle.Proofs.WrittenTerm

/-
  What the scanners read of a written text that something
  else follows: blanks, names, integers and strings.

  Main statements:
    * `Scanner.inlineBlanks_append`
    * `Scanner.blanks_append`
    * `Scanner.identifier_append`
    * `Scanner.literal_integerText`
    * `Scanner.literal_quotedIn`
-/

namespace MapStyle

namespace Scanner

/- The text is empty or begins with another character. -/
def BeginsOutside
    (accepted : Char → Bool)
    (text : List Char) : Prop :=
  ∀ c ∈ text.head?, accepted c = false

@[simp] theorem beginsOutside_nil
    {accepted : Char → Bool} :
    BeginsOutside accepted [] := by
  simp [BeginsOutside]

@[simp] theorem beginsOutside_cons
    {accepted : Char → Bool}
    {c : Char}
    {rest : List Char} :
    BeginsOutside accepted (c :: rest) ↔ accepted c = false := by
  simp [BeginsOutside]

/-
  The longest run of accepted characters ends where a text
  begins outside.
-/
theorem takeWhile_append
    {accepted : Char → Bool}
    {text rest : List Char}
    (hText : ∀ c ∈ text, accepted c = true)
    (hRest : BeginsOutside accepted rest) :
    (text ++ rest).takeWhile accepted = text := by
  rw [List.takeWhile_append_of_pos hText]
  cases rest with
  | nil => simp
  | cons c rest =>
      rw [beginsOutside_cons] at hRest
      simp [hRest]

theorem dropWhile_append
    {accepted : Char → Bool}
    {text rest : List Char}
    (hText : ∀ c ∈ text, accepted c = true)
    (hRest : BeginsOutside accepted rest) :
    (text ++ rest).dropWhile accepted = rest := by
  rw [List.dropWhile_append_of_pos hText]
  cases rest with
  | nil => rfl
  | cons c rest =>
      rw [beginsOutside_cons] at hRest
      simp [hRest]

------------------------------------------------------------
-- Marks
------------------------------------------------------------

@[simp] theorem strip?_nil
    (text : List Char) :
    strip? [] text = some text :=
  rfl

@[simp] theorem strip?_cons_nil
    (m : Char)
    (mark : List Char) :
    strip? (m :: mark) [] = none :=
  rfl

@[simp] theorem strip?_cons_cons
    (m : Char)
    (mark : List Char)
    (c : Char)
    (text : List Char) :
    strip? (m :: mark) (c :: text) =
      if m = c then strip? mark text else none :=
  rfl

/- A mark is found exactly where a text begins with it. -/
theorem strip?_eq_some_iff
    {mark text rest : List Char} :
    strip? mark text = some rest ↔ text = mark ++ rest := by
  induction mark generalizing text with
  | nil => simp
  | cons m mark ih =>
      cases text with
      | nil => simp
      | cons c text =>
          by_cases hc : m = c
          · subst hc
            simp [ih]
          · simp [hc, Ne.symm hc]

/- A text that begins otherwise does not begin with a mark. -/
theorem strip?_of_beginsOutside
    {accepted : Char → Bool}
    {m : Char}
    {text : List Char}
    (hm : accepted m = true)
    (h : BeginsOutside accepted text)
    (mark : List Char) :
    strip? (m :: mark) text = none := by
  cases text with
  | nil => rfl
  | cons c text =>
      rw [beginsOutside_cons] at h
      have hc : m ≠ c := by
        rintro rfl
        rw [hm] at h
        cases h
      simp [hc]

/- The second scanner is tried if the first reads nothing. -/
theorem either_of_some
    {α : Type}
    {first second : Scanner α}
    {text : List Char}
    {result : α × List Char}
    (h : first text = some result) :
    either first second text = some result := by
  simp [either, h]

theorem either_of_none
    {α : Type}
    {first second : Scanner α}
    {text : List Char}
    (h : first text = none) :
    either first second text = second text := by
  simp [either, h]

/- A reading that moves on is the first of many. -/
theorem many_of_some
    {α : Type}
    {scan : Scanner α}
    {text rest : List Char}
    {a : α}
    (h : scan text = some (a, rest))
    (hShorter : rest.length < text.length) :
    many scan text =
      (a :: (many scan rest).1, (many scan rest).2) := by
  rw [many]
  simp [h, hShorter]

theorem many_of_none
    {α : Type}
    {scan : Scanner α}
    {text : List Char}
    (h : scan text = none) :
    many scan text = ([], text) := by
  rw [many]
  simp [h]

------------------------------------------------------------
-- Blanks
------------------------------------------------------------

@[simp] theorem inlineBlanks_nil : inlineBlanks [] = [] :=
  rfl

theorem inlineBlanks_cons
    {c : Char}
    {rest : List Char}
    (hBlank : isInlineBlank c = false)
    (hComment : c ≠ '#') :
    inlineBlanks (c :: rest) = c :: rest := by
  have hDrop :
      (c :: rest).dropWhile isInlineBlank = c :: rest := by
    simp [hBlank]
  rw [inlineBlanks, hDrop, comment]
  intro more h
  exact hComment (List.cons.inj h).1

/- Blanks in front are skipped. -/
theorem inlineBlanks_append
    {blanks rest : List Char}
    (hBlanks : IsSpacing blanks) :
    inlineBlanks (blanks ++ rest) = inlineBlanks rest := by
  rw [inlineBlanks, List.dropWhile_append_of_pos hBlanks,
    ← inlineBlanks]

/- A text that begins visibly has no blanks in front. -/
theorem blanks_cons
    {c : Char}
    {rest : List Char}
    (hBlank : isLineBlank c = false)
    (hComment : c ≠ '#') :
    blanks (c :: rest) = c :: rest := by
  rw [blanks, skipWith]
  simp [hBlank, hComment]

/- A comment ends where its line does. -/
theorem afterComment?_append
    {text ending rest : List Char}
    (hText : ∀ c ∈ text, c ≠ '\n' ∧ c ≠ '\r')
    (hEnding : ending = ['\n'] ∨ ending = ['\r', '\n']) :
    afterComment? (text ++ (ending ++ rest)) =
      some (ending ++ rest) := by
  induction text with
  | nil =>
      rcases hEnding with rfl | rfl
      · rfl
      · rfl
  | cons c text ih =>
      have hc := hText c (by simp)
      have hMore := ih (fun d hd => hText d (by simp [hd]))
      rw [← hMore, List.cons_append, afterComment?]
      · exact hc.1
      · intro more h
        exact absurd h hc.2
      · exact hc.2

/- Everything that a gap consists of is skipped. -/
theorem blanks_append
    {gap rest : List Char}
    (hGap : Gap gap) :
    blanks (gap ++ rest) = blanks rest := by
  induction hGap with
  | nil => rfl
  | blank h _ ih =>
      rw [List.cons_append, blanks, skipWith, if_pos h]
      exact ih
  | @comment text ending more hText hEnding _ ih =>
      have hAfter :
          afterComment? (text ++ (ending ++ (more ++ rest))) =
            some (ending ++ (more ++ rest)) :=
        afterComment?_append hText hEnding
      have hSkip :
          blanks (ending ++ (more ++ rest)) =
            blanks (more ++ rest) := by
        rcases hEnding with rfl | rfl
        · simp [blanks, skipWith, isLineBlank]
        · simp [blanks, skipWith, isLineBlank]
      rw [← ih, ← hSkip, List.cons_append, List.append_assoc,
        List.append_assoc, blanks, blanks, skipWith]
      simp [isLineBlank]
      split
      · rename_i after h
        cases hAfter.symm.trans h
        rfl
      · rename_i h
        cases hAfter.symm.trans h

------------------------------------------------------------
-- Names
------------------------------------------------------------

/- The letters are two ranges of code points, digits a third. -/
theorem isAlpha_iff
    {c : Char} :
    c.isAlpha = true ↔
      (65 ≤ c.toNat ∧ c.toNat ≤ 90) ∨
        (97 ≤ c.toNat ∧ c.toNat ≤ 122) := by
  have hRanges :
      c.isAlpha =
        (decide (65 ≤ c.val ∧ c.val ≤ 90) ||
          (decide (97 ≤ c.val) && decide (c.val ≤ 122))) :=
    rfl
  simp [hRanges, UInt32.le_iff_toNat_le]

theorem isDigit_iff
    {c : Char} :
    c.isDigit = true ↔ 48 ≤ c.toNat ∧ c.toNat ≤ 57 := by
  have hRange :
      c.isDigit =
        (decide (48 ≤ c.val) && decide (c.val ≤ 57)) :=
    rfl
  simp [hRange, UInt32.le_iff_toNat_le]

/-
  Names by their characters: letters, digits behind the
  first one, and underscores.
-/
theorem isNameStart_iff
    {c : Char} :
    isNameStart c = true ↔ c.isAlpha = true ∨ c = '_' := by
  simp [isNameStart]

theorem isNameChar_iff
    {c : Char} :
    isNameChar c = true ↔
      (c.isAlpha = true ∨ c.isDigit = true) ∨ c = '_' := by
  have hAlphanum : c.isAlphanum = (c.isAlpha || c.isDigit) :=
    rfl
  simp [isNameChar, hAlphanum]

theorem isNameChar_of_isNameStart
    {c : Char}
    (h : isNameStart c = true) :
    isNameChar c = true := by
  rw [isNameStart_iff] at h
  rw [isNameChar_iff]
  rcases h with h | h
  · exact .inl (.inl h)
  · exact .inr h

theorem isNameChar_of_isDigit
    {c : Char}
    (h : c.isDigit = true) :
    isNameChar c = true := by
  rw [isNameChar_iff]
  exact .inl (.inr h)

theorem isDigit_of_isNameStart
    {c : Char}
    (h : isNameStart c = true) :
    c.isDigit = false := by
  rw [isNameStart_iff] at h
  rcases h with h | rfl
  · cases hDigit : c.isDigit with
    | false => rfl
    | true =>
        rw [isAlpha_iff] at h
        rw [isDigit_iff] at hDigit
        omega
  · rfl

/- A name begins with a letter and consists of name characters. -/
theorem toList_of_isName
    {name : String}
    (h : isName name = true) :
    ∃ c more, name.toList = c :: more ∧
      isNameStart c = true ∧
      ∀ d ∈ c :: more, isNameChar d = true := by
  rw [isName] at h
  cases hChars : name.toList with
  | nil => simp [hChars] at h
  | cons c more =>
      simp [hChars] at h
      refine ⟨c, more, rfl, h.1, ?_⟩
      intro d hd
      rcases List.mem_cons.mp hd with rfl | hd
      · exact isNameChar_of_isNameStart h.1
      · exact h.2 d hd

/-
  A name is read up to the first character that is not part
  of one.
-/
theorem identifier_append
    {name : String}
    {rest : List Char}
    (hName : isName name = true)
    (hRest : BeginsOutside isNameChar rest) :
    identifier (name.toList ++ rest) = some (name, rest) := by
  rcases toList_of_isName hName with
    ⟨c, more, hChars, hStart, hAll⟩
  have hMore : ∀ d ∈ more, isNameChar d = true :=
    fun d hd => hAll d (List.mem_cons_of_mem c hd)
  rw [hChars, List.cons_append, identifier, if_pos hStart,
    takeWhile_append hMore hRest, dropWhile_append hMore hRest,
    ← hChars, String.ofList_toList]

/- No name begins with anything else. -/
theorem identifier_eq_none
    {text : List Char}
    (h : BeginsOutside isNameStart text) :
    identifier text = none := by
  cases text with
  | nil => rfl
  | cons c rest =>
      rw [beginsOutside_cons] at h
      simp [identifier, h]

------------------------------------------------------------
-- Integers
------------------------------------------------------------

/- A run of characters is read to its end. -/
theorem run_append
    {accepted : Char → Bool}
    {text rest : List Char}
    (hText : ∀ c ∈ text, accepted c = true)
    (hSome : text ≠ [])
    (hRest : BeginsOutside accepted rest) :
    run accepted (text ++ rest) = some (text, rest) := by
  rw [run, takeWhile_append hText hRest,
    dropWhile_append hText hRest]
  cases text with
  | nil => exact absurd rfl hSome
  | cons c text => rfl

theorem run_eq_none
    {accepted : Char → Bool}
    {text : List Char}
    (h : BeginsOutside accepted text) :
    run accepted text = none := by
  cases text with
  | nil => rfl
  | cons c rest =>
      rw [beginsOutside_cons] at h
      simp [run, h]

/- A number of any kind begins with a digit. -/
theorem hexadecimal_eq_none
    {text : List Char}
    (h : BeginsOutside Char.isDigit text) :
    hexadecimal text = none := by
  have hMark := strip?_of_beginsOutside (m := '0') rfl h
  simp [hexadecimal, hMark]

theorem decimal_eq_none
    {text : List Char}
    (h : BeginsOutside Char.isDigit text) :
    decimal text = none := by
  simp [decimal, run_eq_none h]

theorem integer_eq_none
    {text : List Char}
    (h : BeginsOutside Char.isDigit text) :
    integer text = none := by
  simp [integer, run_eq_none h]

/- The digits of a natural give it back. -/
theorem decimalValue_naturalText (n : Nat) :
    decimalValue (Decimal.naturalText n) = n := by
  have hValue : Nat.ofDigitChars 10 (Nat.toDigits 10 n) 0 = n :=
    Nat.ofDigitChars_ten_toDigits
  rw [Nat.ofDigitChars_eq_foldl] at hValue
  simpa [decimalValue, Decimal.naturalText, Nat.mul_comm]
    using hValue

theorem isDigit_of_mem_naturalText
    {n : Nat}
    {c : Char}
    (h : c ∈ Decimal.naturalText n) :
    c.isDigit = true :=
  Nat.isDigit_of_mem_toDigits (by decide) (by decide) h

theorem naturalText_ne_nil (n : Nat) :
    Decimal.naturalText n ≠ [] :=
  Nat.toDigits_ne_nil

/- What may stand after digits without being part of a number. -/
structure EndsNumber (rest : List Char) : Prop where
  name : BeginsOutside isNameChar rest
  point :
    ∀ more, rest = '.' :: more →
      BeginsOutside Char.isDigit more

theorem EndsNumber.digit
    {rest : List Char}
    (h : EndsNumber rest) :
    BeginsOutside Char.isDigit rest := by
  intro c hc
  cases hDigit : c.isDigit with
  | false => rfl
  | true =>
      have hName := h.name c hc
      rw [isNameChar_of_isDigit hDigit] at hName
      cases hName

/- No mark of another base stands in front of decimal digits. -/
theorem strip?_digits_eq_none
    (letter : Char)
    {digits rest : List Char}
    (hLetter : letter.isDigit = false)
    (hName : isNameChar letter = true)
    (hDigits : ∀ c ∈ digits, c.isDigit = true)
    (hSome : digits ≠ [])
    (hRest : BeginsOutside isNameChar rest) :
    strip? ['0', letter] (digits ++ rest) = none := by
  have hOther : ∀ c, (digits ++ rest).tail.head? = some c →
      letter ≠ c := by
    rintro c hc rfl
    rcases digits with _ | ⟨d, _ | ⟨e, digits⟩⟩
    · exact hSome rfl
    · have hOutside := hRest letter (by simpa using hc)
      rw [hName] at hOutside
      cases hOutside
    · have he : e = letter := by simpa using hc
      have hDigit := hDigits e (by simp)
      rw [he, hLetter] at hDigit
      cases hDigit
  rcases hText : digits ++ rest with _ | ⟨d, _ | ⟨e, more⟩⟩
  · rfl
  · simp
  · rw [hText] at hOther
    simp [hOther e rfl]

theorem integerText_eq_naturalText
    {n : Int64}
    (h : 0 ≤ n) :
    Decimal.integerText n.toInt =
      Decimal.naturalText n.toNatClampNeg := by
  rw [Int64.toInt_eq_toNatClampNeg h, Decimal.integerText]
  simp

/- An integer without a sign is read back from its digits. -/
theorem integer?_toNatClampNeg
    {n : Int64}
    (h : 0 ≤ n) :
    integer? n.toNatClampNeg = some n := by
  have hLt : n.toNatClampNeg < 0x8000000000000000 :=
    n.toNatClampNeg_lt
  rw [integer?, if_pos hLt, Int64.ofNat_toNatClampNeg n h]

/- Digits without a fraction are no number with one. -/
theorem decimal_digits_eq_none
    {digits rest : List Char}
    (hDigits : ∀ c ∈ digits, c.isDigit = true)
    (hSome : digits ≠ [])
    (hRest : EndsNumber rest) :
    decimal (digits ++ rest) = none := by
  have hRun := run_append hDigits hSome hRest.digit
  cases hPoint : strip? ['.'] rest with
  | none => simp [decimal, hRun, hPoint]
  | some more =>
      have hFraction : run Char.isDigit more = none :=
        run_eq_none
          (hRest.point more (strip?_eq_some_iff.mp hPoint))
      simp [decimal, hRun, hPoint, hFraction]

/- An integer is read back if it is not negative. -/
theorem literal_integerText
    {n : Int64}
    {rest : List Char}
    (hSign : 0 ≤ n)
    (hRest : EndsNumber rest) :
    literal (Decimal.integerText n.toInt ++ rest) =
      some (.int n, rest) := by
  rw [integerText_eq_naturalText hSign]
  have hDigits :
      ∀ c ∈ Decimal.naturalText n.toNatClampNeg,
        c.isDigit = true :=
    fun c => isDigit_of_mem_naturalText
  have hSome := naturalText_ne_nil n.toNatClampNeg
  have hHexadecimal :
      hexadecimal
        (Decimal.naturalText n.toNatClampNeg ++ rest) = none := by
    have hSmall := strip?_digits_eq_none 'x'
      (by decide) (by decide) hDigits hSome hRest.name
    have hLarge := strip?_digits_eq_none 'X'
      (by decide) (by decide) hDigits hSome hRest.name
    simp [hexadecimal, hSmall, hLarge]
  have hDecimal := decimal_digits_eq_none hDigits hSome hRest
  have hInteger :
      integer (Decimal.naturalText n.toNatClampNeg ++ rest) =
        some (.int n, rest) := by
    have hRun := run_append hDigits hSome hRest.digit
    simp [integer, hRun, decimalValue_naturalText,
      integer?_toNatClampNeg hSign]
  rw [literal, either_of_none hHexadecimal,
    either_of_none hDecimal, either_of_some hInteger]

------------------------------------------------------------
-- Strings
------------------------------------------------------------

/- The escapes of quotes and backslashes are read back. -/
theorem untilQuote_append
    {quote : Char}
    (hQuote : quote = '"' ∨ quote = '\'')
    (chars rest : List Char) :
    untilQuote quote
        (chars.flatMap (escapedIn quote) ++ quote :: rest) =
      some (chars, rest) := by
  have hPlain : quote ≠ '\\' := by
    rcases hQuote with rfl | rfl
    · decide
    · decide
  induction chars with
  | nil =>
    rw [List.flatMap_nil, List.nil_append, untilQuote]
    · simp
    · simp [hPlain]
    · simp [hPlain]
  | cons c chars ih =>
      rw [List.flatMap_cons, List.append_assoc, escapedIn]
      split
      · rename_i hEscaped
        have hSelf : unescaped c = c := by
          rcases hEscaped with rfl | rfl
          · rcases hQuote with rfl | rfl
            · rfl
            · rfl
          · rfl
        simp [untilQuote, ih, hSelf]
      · rename_i hOther
        have hOther : c ≠ quote ∧ c ≠ '\\' :=
          not_or.mp hOther
        rw [List.singleton_append, untilQuote]
        · simp [hOther.1, ih]
        · simp [hOther.2]
        · simp [hOther.2]

/- A string is read back from either kind of quotes. -/
theorem literal_quotedIn
    {quote : Char}
    (hQuote : quote = '"' ∨ quote = '\'')
    (value : String)
    (rest : List Char) :
    literal (quotedIn quote value ++ rest) =
      some (.text value, rest) := by
  have hText :
      quotedIn quote value ++ rest =
        quote :: (value.toList.flatMap (escapedIn quote) ++
          quote :: rest) := by
    simp [quotedIn]
  have hUntil := untilQuote_append hQuote value.toList rest
  have hQuoted :
      quoted (quotedIn quote value ++ rest) =
        some (.text value, rest) := by
    rw [hText]
    rcases hQuote with rfl | rfl
    · simp [quoted, either, quotedBy, hUntil]
    · simp [quoted, either, quotedBy, hUntil]
  have hDigit :
      BeginsOutside Char.isDigit
        (quotedIn quote value ++ rest) := by
    rw [hText, beginsOutside_cons]
    rcases hQuote with rfl | rfl
    · rfl
    · rfl
  rw [literal, either_of_none (hexadecimal_eq_none hDigit),
    either_of_none (decimal_eq_none hDigit),
    either_of_none (integer_eq_none hDigit),
    either_of_some hQuoted]

/- What begins like nothing else is no literal. -/
theorem literal_eq_none
    {text : List Char}
    (hDigit : BeginsOutside Char.isDigit text)
    (hMark : ∀ c ∈ ['"', '\'', ':'], text.head? ≠ some c) :
    literal text = none := by
  have hQuoted : quoted text = none := by
    cases text with
    | nil => rfl
    | cons c rest =>
        simp at hMark
        simp [quoted, either, quotedBy, Ne.symm hMark.1,
          Ne.symm hMark.2.1]
  have hSymbol : symbol text = none := by
    cases text with
    | nil => rfl
    | cons c rest =>
        simp at hMark
        simp [symbol, Ne.symm hMark.2.2]
  rw [literal, either_of_none (hexadecimal_eq_none hDigit),
    either_of_none (decimal_eq_none hDigit),
    either_of_none (integer_eq_none hDigit),
    either_of_none hQuoted, hSymbol]

end Scanner

end MapStyle
