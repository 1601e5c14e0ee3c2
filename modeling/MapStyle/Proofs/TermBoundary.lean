import MapStyle.Proofs.Scanning
import MapStyle.Text.Blank

/-
  Where a written term begins and ends: the characters at its
  front and back, and the texts that may follow it in a place
  of a level without being read as a part of it.

  Key definitions include:
    * `Opens`
    * `Shape`
    * `Follows`

  Main statements:
    * `Phrase.Written.shape`
    * `Follows.endsNumber`
-/

namespace MapStyle

open Scanner

------------------------------------------------------------
-- The front of a term
------------------------------------------------------------

/-
  Whether a character may begin a term in a place of a level:
  a sign up to level 7, and a point at level 0 alone.
-/
def opensTerm
    (p : Nat)
    (c : Char) : Bool :=
  isNameChar c || ['"', '\'', '(', '['].contains c
    || (p ≤ 7 && ['-', '!'].contains c) || (p = 0 && c = '.')

/- The text begins with such a character. -/
def Opens
    (p : Nat)
    (text : List Char) : Prop :=
  ∃ c more, text = c :: more ∧ opensTerm p c = true

/- A place of a lower level takes every term of a higher one. -/
theorem opensTerm_of_le
    {p q : Nat}
    {c : Char}
    (hLevel : p ≤ q)
    (h : opensTerm q c = true) :
    opensTerm p c = true := by
  simp [opensTerm] at h ⊢
  rcases h with ((h | h) | h) | h
  · exact .inl (.inl (.inl h))
  · exact .inl (.inl (.inr h))
  · exact .inl (.inr ⟨by omega, h.2⟩)
  · exact .inr ⟨by omega, h.2⟩

theorem Opens.of_le
    {p q : Nat}
    {text : List Char}
    (hLevel : p ≤ q)
    (h : Opens q text) : Opens p text := by
  rcases h with ⟨c, more, rfl, hc⟩
  exact ⟨c, more, rfl, opensTerm_of_le hLevel hc⟩

theorem Opens.append
    {p : Nat}
    {text : List Char}
    (h : Opens p text)
    (rest : List Char) : Opens p (text ++ rest) := by
  rcases h with ⟨c, more, rfl, hc⟩
  exact ⟨c, more ++ rest, rfl, hc⟩

/- A text that opens a term begins with nothing else. -/
theorem Opens.beginsOutside
    {p : Nat}
    {text : List Char}
    {accepted : Char → Bool}
    (h : Opens p text)
    (hAccepted :
      ∀ c, accepted c = true → opensTerm 0 c = false) :
    BeginsOutside accepted text := by
  rcases h.of_le (Nat.zero_le p) with ⟨c, more, rfl, hc⟩
  rw [beginsOutside_cons]
  cases hOther : accepted c with
  | false => rfl
  | true =>
      rw [hAccepted c hOther] at hc
      cases hc

/- Names and numbers begin alike. -/
theorem opensTerm_of_isNameChar
    {p : Nat}
    {c : Char}
    (h : isNameChar c = true) :
    opensTerm p c = true := by
  simp [opensTerm, h]

theorem opensTerm_of_isLineBlank
    {c : Char}
    (h : isLineBlank c = true) :
    opensTerm 0 c = false := by
  simp [isLineBlank] at h
  rcases h with ((rfl | rfl) | rfl) | rfl
  · decide
  · decide
  · decide
  · decide

theorem isLineBlank_of_isInlineBlank
    {c : Char}
    (h : isInlineBlank c = true) :
    isLineBlank c = true := by
  simp [isInlineBlank] at h
  rcases h with rfl | rfl
  · rfl
  · rfl

/- A term begins neither with a blank nor with a comment. -/
theorem Opens.visible
    {p : Nat}
    {text : List Char}
    (h : Opens p text) :
    ∃ c more, text = c :: more ∧ isLineBlank c = false ∧
      isInlineBlank c = false ∧ c ≠ '#' := by
  have hLine : BeginsOutside isLineBlank text :=
    h.beginsOutside (fun _ => opensTerm_of_isLineBlank)
  have hInline : BeginsOutside isInlineBlank text :=
    h.beginsOutside (fun _ hc =>
      opensTerm_of_isLineBlank (isLineBlank_of_isInlineBlank hc))
  rcases h with ⟨c, more, rfl, hc⟩
  rw [beginsOutside_cons] at hLine hInline
  refine ⟨c, more, rfl, hLine, hInline, ?_⟩
  rintro rfl
  have hOpens := opensTerm_of_le (Nat.zero_le p) hc
  exact absurd hOpens (by decide)

/- Nothing is skipped in front of a term. -/
theorem Opens.blanks_eq
    {p : Nat}
    {text : List Char}
    (h : Opens p text) : blanks text = text := by
  rcases h.visible with ⟨c, more, rfl, hLine, -, hComment⟩
  exact blanks_cons hLine hComment

theorem Opens.inlineBlanks_eq
    {p : Nat}
    {text : List Char}
    (h : Opens p text) : inlineBlanks text = text := by
  rcases h.visible with ⟨c, more, rfl, -, hInline, hComment⟩
  exact inlineBlanks_cons hInline hComment

------------------------------------------------------------
-- What may follow a term
------------------------------------------------------------

/- The characters that would make another mark of a mark. -/
def continuesMark (c : Char) : Bool :=
  c = '=' || c = '*'

/- The brackets that close what a term stands in. -/
def closingBrackets : List Char :=
  [')', ']']

/- The characters that close a place for a term. -/
def closers : List Char :=
  closingBrackets ++ [',']

/-
  What may follow a term in a place of a level: the end of the
  text, a closing bracket or comma, the mark of a range or an
  operator that is looser than the place, and, after a term
  at level 8 that something is attached to, a suffix.
-/
inductive Follows : Nat → List Char → Prop
  | ending
      {p : Nat} :
      Follows p []
  | closing
      {p : Nat}
      {blanks rest : List Char}
      {c : Char}
      (hBlanks : IsSpacing blanks)
      (hc : c ∈ closers) :
      Follows p (blanks ++ c :: rest)
  | range
      {p : Nat}
      {blanks rest : List Char}
      (hLevel : 0 < p)
      (hBlanks : IsSpacing blanks) :
      Follows p (blanks ++ '.' :: '.' :: rest)
  | operator
      {p : Nat}
      {blanks rest : List Char}
      {op : BinaryOp}
      (hLevel : op.level < p)
      (hBlanks : IsSpacing blanks)
      (hRest : BeginsOutside continuesMark rest) :
      Follows p (blanks ++ (op.mark ++ rest))
  | member
      {p : Nat}
      {c : Char}
      {rest : List Char}
      (hLevel : 8 < p)
      (hc : isNameStart c = true) :
      Follows p ('.' :: c :: rest)
  | bracket
      {p : Nat}
      {rest : List Char}
      (hLevel : 8 < p) :
      Follows p ('[' :: rest)

/-
  What may follow a term of a level may follow one of a
  higher level.
-/
theorem Follows.of_le
    {p q : Nat}
    {rest : List Char}
    (hLevel : p ≤ q)
    (h : Follows p rest) : Follows q rest := by
  cases h with
  | ending => exact .ending
  | closing hBlanks hc => exact .closing hBlanks hc
  | range hp hBlanks => exact .range (by omega) hBlanks
  | operator hp hBlanks hRest =>
      exact .operator (by omega) hBlanks hRest
  | member hp hc => exact .member (by omega) hc
  | bracket hp => exact .bracket (by omega)

/- The characters that operators between terms begin with. -/
def operatorStarts : List Char :=
  ['|', '&', '=', '!', '<', '>', '+', '-', '*', '/', '%']

/-
  The first character of an operator tells that the term has
  ended.
-/
theorem BinaryOp.mark_eq_cons (op : BinaryOp) :
    ∃ c ∈ operatorStarts, ∃ more, op.mark = c :: more := by
  cases op <;> exact ⟨_, by decide, _, rfl⟩

/- The characters that may follow a term. -/
def followers : List Char :=
  [' ', '\t', '.', '['] ++ closers ++ operatorStarts

theorem mem_followers_of_isInlineBlank
    {c : Char}
    (h : isInlineBlank c = true) : c ∈ followers := by
  simp [isInlineBlank] at h
  rcases h with rfl | rfl
  · decide
  · decide

theorem head?_spacing_append
    {blanks rest : List Char}
    {c : Char}
    (hBlanks : IsSpacing blanks)
    (h : (blanks ++ rest).head? = some c) :
    c ∈ followers ∨ rest.head? = some c := by
  cases blanks with
  | nil => exact .inr h
  | cons b blanks =>
      have hb : b = c := by simpa using h
      have hBlank := hBlanks b (by simp)
      exact .inl (hb ▸ mem_followers_of_isInlineBlank hBlank)

/- Few characters may follow a term at all. -/
theorem Follows.mem_followers
    {p : Nat}
    {rest : List Char}
    {c : Char}
    (h : Follows p rest)
    (hc : rest.head? = some c) : c ∈ followers := by
  cases h with
  | ending => cases hc
  | closing hBlanks hClosing =>
      rcases head?_spacing_append hBlanks hc with hc | hc
      · exact hc
      · cases hc
        simp [closers, closingBrackets] at hClosing
        rcases hClosing with rfl | rfl | rfl <;> decide
  | range hLevel hBlanks =>
      rcases head?_spacing_append hBlanks hc with hc | hc
      · exact hc
      · cases hc
        decide
  | @operator _ _ op hLevel hBlanks hRest =>
      rcases head?_spacing_append hBlanks hc with hc | hc
      · exact hc
      · rcases op.mark_eq_cons with ⟨d, hd, more, hMark⟩
        rw [hMark] at hc
        cases hc
        exact List.mem_append_right _ hd
  | member =>
      cases hc
      decide
  | bracket =>
      cases hc
      decide

theorem Follows.beginsOutside
    {p : Nat}
    {rest : List Char}
    {accepted : Char → Bool}
    (h : Follows p rest)
    (hOutside : followers.all (fun c => !accepted c) = true) :
    BeginsOutside accepted rest := by
  intro c hc
  rw [List.all_eq_true] at hOutside
  simpa using hOutside c (h.mem_followers hc)

/- A character that is no blank stands behind the blanks. -/
theorem eq_cons_of_spacing_append
    {blanks rest more : List Char}
    {c : Char}
    (hBlanks : IsSpacing blanks)
    (hc : isInlineBlank c = false)
    (h : blanks ++ rest = c :: more) :
    rest = c :: more := by
  cases blanks with
  | nil => exact h
  | cons b blanks =>
      cases h
      have hBlank := hBlanks c (by simp)
      rw [hc] at hBlank
      cases hBlank

/- A point after a term is one of two or that of a method. -/
theorem Follows.of_point
    {p : Nat}
    {more : List Char}
    (h : Follows p ('.' :: more)) :
    (∃ rest, more = '.' :: rest) ∨
      (8 < p ∧ ∃ c rest, more = c :: rest ∧
        isNameStart c = true) := by
  generalize hText : '.' :: more = text at h
  cases h with
  | ending => cases hText
  | closing hBlanks hClosing =>
      have hFront :=
        eq_cons_of_spacing_append hBlanks (by decide) hText.symm
      cases hFront
      simp [closers, closingBrackets] at hClosing
  | range hLevel hBlanks =>
      have hFront :=
        eq_cons_of_spacing_append hBlanks (by decide) hText.symm
      cases hFront
      exact .inl ⟨_, rfl⟩
  | @operator _ _ op hLevel hBlanks hRest =>
      have hFront :=
        eq_cons_of_spacing_append hBlanks (by decide) hText.symm
      rcases op.mark_eq_cons with ⟨d, hd, tail, hMark⟩
      rw [hMark] at hFront
      cases hFront
      exact absurd hd (by decide)
  | member hLevel hStart =>
      cases hText
      exact .inr ⟨hLevel, _, _, rfl, hStart⟩
  | bracket => cases hText

/- A bracket after a term is that of an index. -/
theorem Follows.of_bracket
    {p : Nat}
    {more : List Char}
    (h : Follows p ('[' :: more)) : 8 < p := by
  generalize hText : '[' :: more = text at h
  cases h with
  | ending => cases hText
  | closing hBlanks hClosing =>
      have hFront :=
        eq_cons_of_spacing_append hBlanks (by decide) hText.symm
      cases hFront
      simp [closers, closingBrackets] at hClosing
  | range hLevel hBlanks =>
      have hFront :=
        eq_cons_of_spacing_append hBlanks (by decide) hText.symm
      cases hFront
  | @operator _ _ op hLevel hBlanks hRest =>
      have hFront :=
        eq_cons_of_spacing_append hBlanks (by decide) hText.symm
      rcases op.mark_eq_cons with ⟨d, hd, tail, hMark⟩
      rw [hMark] at hFront
      cases hFront
      exact absurd hd (by decide)
  | member => cases hText
  | bracket hLevel => exact hLevel

/- Nothing that follows a term continues a number. -/
theorem Follows.endsNumber
    {p : Nat}
    {rest : List Char}
    (h : Follows p rest) : EndsNumber rest := by
  refine ⟨h.beginsOutside (by decide), ?_⟩
  rintro more rfl
  rcases h.of_point with ⟨rest, rfl⟩ | ⟨-, c, rest, rfl, hc⟩
  · rw [beginsOutside_cons]
    decide
  · rw [beginsOutside_cons]
    exact isDigit_of_isNameStart hc

------------------------------------------------------------
-- Texts that begin with no keyword
------------------------------------------------------------

/- No colon follows the name characters at the front. -/
def HasNoKeyword (text : List Char) : Prop :=
  BeginsOutside (fun c => c = ':') (text.dropWhile isNameChar)

/- A name without a colon after it is no keyword. -/
theorem hasNoKeyword_append
    {name rest : List Char}
    (hName : ∀ c ∈ name, isNameChar c = true)
    (hEnd : BeginsOutside isNameChar rest)
    (hColon : BeginsOutside (fun c => c = ':') rest) :
    HasNoKeyword (name ++ rest) := by
  rw [HasNoKeyword, dropWhile_append hName hEnd]
  exact hColon

theorem hasNoKeyword_cons
    {c : Char}
    {rest : List Char}
    (hName : isNameChar c = false)
    (hColon : c ≠ ':') :
    HasNoKeyword (c :: rest) := by
  have hDrop : ¬isNameChar c = true := by
    simp [hName]
  rw [HasNoKeyword, List.dropWhile_cons_of_neg hDrop,
    beginsOutside_cons]
  simp [hColon]

theorem hasNoKeyword_of_follows
    {p : Nat}
    {name rest : List Char}
    (hName : ∀ c ∈ name, isNameChar c = true)
    (hRest : Follows p rest) :
    HasNoKeyword (name ++ rest) :=
  hasNoKeyword_append hName
    (hRest.beginsOutside (by decide))
    (hRest.beginsOutside (by decide))

------------------------------------------------------------
-- The back of a term
------------------------------------------------------------

theorem isBlank_of_isNameChar
    {c : Char}
    (h : isNameChar c = true) :
    Text.isBlank c = false := by
  cases hBlank : Text.isBlank c with
  | false => rfl
  | true =>
      simp [Text.isBlank, Text.blankRanges] at hBlank
      rw [isNameChar_iff, isAlpha_iff, isDigit_iff] at h
      rcases h with h | rfl
      · omega
      · simp at hBlank

/- The text ends in a character that is no blank. -/
def EndsVisibly (text : List Char) : Prop :=
  ∃ front c, text = front ++ [c] ∧ Text.isBlank c = false

/- What ends visibly does so with anything in front. -/
theorem EndsVisibly.append
    {text : List Char}
    (h : EndsVisibly text)
    (front : List Char) : EndsVisibly (front ++ text) := by
  rcases h with ⟨middle, c, rfl, hc⟩
  exact ⟨front ++ middle, c, by simp, hc⟩

theorem EndsVisibly.cons
    {text : List Char}
    (h : EndsVisibly text)
    (c : Char) : EndsVisibly (c :: text) :=
  h.append [c]

theorem endsVisibly_singleton
    {c : Char}
    (hc : Text.isBlank c = false) : EndsVisibly [c] :=
  ⟨[], c, rfl, hc⟩

theorem endsVisibly_of_isNameChar
    {text : List Char}
    (hSome : text ≠ [])
    (h : ∀ c ∈ text, isNameChar c = true) :
    EndsVisibly text := by
  have hLast := h _ (List.getLast_mem hSome)
  exact ⟨text.dropLast, text.getLast hSome,
    (List.dropLast_concat_getLast hSome).symm,
    isBlank_of_isNameChar hLast⟩

------------------------------------------------------------
-- The shape of written terms
------------------------------------------------------------

/-
  What a written term looks like from outside: it begins with
  a character that opens a term, no keyword, and ends visibly.
-/
structure Shape (p : Nat) (text : List Char) : Prop where
  front : Opens p text
  keyword :
    ∀ {q rest}, Follows q rest → HasNoKeyword (text ++ rest)
  back : EndsVisibly text

theorem shape_of_isNameChar
    {p : Nat}
    {text : List Char}
    (hSome : text ≠ [])
    (h : ∀ c ∈ text, isNameChar c = true) :
    Shape p text where
  front := by
    rcases List.exists_cons_of_ne_nil hSome with ⟨c, more, rfl⟩
    have hc := h c (by simp)
    exact ⟨c, more, rfl, opensTerm_of_isNameChar hc⟩
  keyword := hasNoKeyword_of_follows h
  back := endsVisibly_of_isNameChar hSome h

/- A term within marks of its own. -/
theorem shape_enclosed
    {p : Nat}
    {opening closing : Char}
    {inner : List Char}
    (hOpening : opensTerm p opening = true)
    (hName : isNameChar opening = false)
    (hColon : opening ≠ ':')
    (hClosing : Text.isBlank closing = false) :
    Shape p (opening :: (inner ++ [closing])) where
  front := ⟨_, _, rfl, hOpening⟩
  keyword := fun _ => hasNoKeyword_cons hName hColon
  back :=
    ((endsVisibly_singleton hClosing).append inner).cons opening

/- What follows a term in a longer one leaves its front. -/
theorem Shape.append
    {p q : Nat}
    {text tail : List Char}
    (h : Shape p text)
    (hFollows :
      ∀ {q' rest}, Follows q' rest → Follows q (tail ++ rest))
    (hBack : EndsVisibly tail) :
    Shape p (text ++ tail) where
  front := h.front.append tail
  keyword := by
    intro q' rest hRest
    rw [List.append_assoc]
    exact h.keyword (hFollows hRest)
  back := hBack.append text

theorem Shape.of_le
    {p q : Nat}
    {text : List Char}
    (hLevel : p ≤ q)
    (h : Shape q text) : Shape p text :=
  ⟨h.front.of_le hLevel, h.keyword, h.back⟩

/- A gap and the term after it begin with nothing else. -/
theorem beginsOutside_gap
    {p : Nat}
    {accepted : Char → Bool}
    {gap text : List Char}
    (hGap : Gap gap)
    (hText : Opens p text)
    (hOther :
      ∀ c, accepted c = true →
        c ≠ '#' ∧ isLineBlank c = false ∧
          opensTerm 0 c = false)
    (rest : List Char) :
    BeginsOutside accepted (gap ++ (text ++ rest)) := by
  cases hGap with
  | nil =>
      exact (hText.append rest).beginsOutside
        (fun c hc => (hOther c hc).2.2)
  | @blank c more h hRest =>
      rw [List.cons_append, beginsOutside_cons]
      cases hc : accepted c with
      | false => rfl
      | true =>
          rw [(hOther c hc).2.1] at h
          cases h
  | comment =>
      rw [List.cons_append, beginsOutside_cons]
      cases hc : accepted '#' with
      | false => rfl
      | true => exact absurd rfl (hOther '#' hc).1

/- Neither a gap nor a term continues the mark before it. -/
theorem beginsOutside_continuesMark
    {p : Nat}
    {gap text : List Char}
    (hGap : Gap gap)
    (hText : Opens p text)
    (rest : List Char) :
    BeginsOutside continuesMark (gap ++ (text ++ rest)) := by
  refine beginsOutside_gap hGap hText ?_ rest
  intro c hc
  simp [continuesMark] at hc
  rcases hc with rfl | rfl
  · decide
  · decide

/-
  An operator of a looser level may follow, with its operand
  behind it.
-/
theorem follows_operator
    {p : Nat}
    {op : BinaryOp}
    {blanks gap text : List Char}
    (hBlanks : IsSpacing blanks)
    (hGap : Gap gap)
    (hText : Opens p text)
    {q : Nat}
    (hLevel : op.level < q)
    (rest : List Char) :
    Follows q
      (blanks ++ (op.mark ++ (gap ++ (text ++ rest)))) :=
  .operator hLevel hBlanks
    (beginsOutside_continuesMark hGap hText rest)

theorem shape_name
    {p : Nat}
    (name : String)
    (hName : isName name = true) :
    Shape p name.toList := by
  rcases toList_of_isName hName with ⟨c, more, hChars, -, hAll⟩
  rw [hChars]
  exact shape_of_isNameChar (List.cons_ne_nil c more) hAll

/- A term with the points of a range after it. -/
theorem Shape.append_points
    {text blanks more : List Char}
    (h : Shape 1 text)
    (hBlanks : IsSpacing blanks)
    (hBack : EndsVisibly ('.' :: more)) :
    Shape 0 (text ++ (blanks ++ '.' :: '.' :: more)) := by
  refine (h.append (q := 1) ?_ ?_).of_le (by decide)
  · intro q rest hRest
    simp only [List.append_assoc, List.cons_append]
    exact .range (by decide) hBlanks
  · exact (hBack.cons '.').append blanks

/- A subject with a point and the name of a member after it. -/
theorem Shape.append_member
    {p : Nat}
    {name : String}
    {text more : List Char}
    (h : Shape 8 text)
    (hPlace : p ≤ 8)
    (hName : isName name = true)
    (hBack : EndsVisibly (name.toList ++ more)) :
    Shape p (text ++ '.' :: (name.toList ++ more)) := by
  rcases toList_of_isName hName with ⟨c, rest, hChars, hStart, -⟩
  refine (h.append (q := 9) ?_ (hBack.cons '.')).of_le hPlace
  intro q after hAfter
  rw [hChars]
  exact .member (by decide) hStart

/- A written term has the shape that its place asks for. -/
theorem Phrase.Written.shape
    {p : Nat}
    {t : Term}
    {s : List Char}
    (h : Phrase.Written (.term p t) s)
    (hPlace : p ≤ 8) : Shape p s := by
  generalize hPhrase : Phrase.term p t = phrase at h
  induction h generalizing p t with
  | ident hName hFree =>
      cases hPhrase
      exact shape_name _ hName
  | int h =>
      cases hPhrase
      rw [integerText_eq_naturalText h]
      exact shape_of_isNameChar (naturalText_ne_nil _)
        (fun c hc =>
          isNameChar_of_isDigit (isDigit_of_mem_naturalText hc))
  | text hQuote =>
      cases hPhrase
      rcases hQuote with rfl | rfl
      · exact shape_enclosed (by simp [opensTerm]) (by decide)
          (by decide) (by decide)
      · exact shape_enclosed (by simp [opensTerm]) (by decide)
          (by decide) (by decide)
  | @bool p value =>
      cases hPhrase
      cases value
      · exact shape_name "false" (by decide)
      · exact shape_name "true" (by decide)
  | null =>
      cases hPhrase
      exact shape_name "nil" (by decide)
  | @list p items gap s hGap hItems ih =>
      cases hPhrase
      rw [← List.append_assoc]
      exact shape_enclosed (by simp [opensTerm]) (by decide)
        (by decide) (by decide)
  | rangeTo hUpper ih =>
      cases hPhrase
      exact ⟨⟨_, _, rfl, by decide⟩,
        fun _ => hasNoKeyword_cons (by decide) (by decide),
        ((ih (by decide) rfl).back.cons _).cons _⟩
  | rangeFrom hLower hBlanks ih =>
      cases hPhrase
      exact (ih (by decide) rfl).append_points hBlanks
        (endsVisibly_singleton (by decide))
  | range hLower hBlanks hUpper ihLower ihUpper =>
      cases hPhrase
      have hBack := (ihUpper (by decide) rfl).back
      exact (ihLower (by decide) rfl).append_points hBlanks
        (hBack.cons '.')
  | @call p name args gap s hName hGap hArgs ih =>
      cases hPhrase
      have hShape : Shape p name.toList :=
        shape_name name hName
      rcases toList_of_isName hName with
        ⟨c, more, hChars, -, hAll⟩
      refine ⟨hShape.front.append _, ?_, ?_⟩
      · intro q rest hRest
        rw [hChars, List.append_assoc]
        exact hasNoKeyword_append hAll (by simp; decide) (by simp)
      · have hClosing : EndsVisibly [')'] :=
          endsVisibly_singleton (by decide)
        exact (((hClosing.append s).append gap).cons '(').append _
  | @member p subject name s hSubject hName ih =>
      cases hPhrase
      have hBack : EndsVisibly (name.toList ++ []) := by
        rw [List.append_nil]
        exact (shape_name (p := p) name hName).back
      have hShape := (ih (Nat.le_refl 8) rfl).append_member
        hPlace hName hBack
      rwa [List.append_nil] at hShape
  | @method p subject name args s gap s' hSubject hName hGap
      hArgs ihSubject ihArgs =>
      cases hPhrase
      have hClosing : EndsVisibly [')'] :=
        endsVisibly_singleton (by decide)
      have hArguments :=
        ((hClosing.append s').append gap).cons '('
      exact (ihSubject (Nat.le_refl 8) rfl).append_member hPlace
        hName (hArguments.append name.toList)
  | @index p subject items s gap s' hSubject hGap hItems hSome
      ihSubject ihItems =>
      cases hPhrase
      have hClosing : EndsVisibly [']'] :=
        endsVisibly_singleton (by decide)
      exact ((ihSubject (Nat.le_refl 8) rfl).append (q := 9)
        (fun _ => .bracket (by decide))
        (((hClosing.append s').append gap).cons '[')).of_le hPlace
  | @unary p op operand s hLevel hOperand ih =>
      cases hPhrase
      have hBack := (ih (by decide) rfl).back
      refine ⟨⟨_, s, rfl, ?_⟩, fun _ => ?_, hBack.cons _⟩
      · cases op <;> simp [opensTerm, UnaryOp.mark, hLevel]
      · cases op
        · exact hasNoKeyword_cons (by decide) (by decide)
        · exact hasNoKeyword_cons (by decide) (by decide)
  | @binary p left right op s blanks gap s' hLevel hLeft
      hBlanks hGap hRight ihLeft ihRight =>
      cases hPhrase
      have hShapeLeft := ihLeft op.leftLevel_le rfl
      have hShapeRight := ihRight op.rightLevel_le rfl
      refine (hShapeLeft.append (q := 9) ?_ ?_).of_le
        (Nat.le_trans hLevel op.level_le_leftLevel)
      · intro q rest hRest
        simp only [List.append_assoc]
        exact follows_operator hBlanks hGap hShapeRight.front
          op.level_lt _
      · exact ((hShapeRight.back.append gap).append _).append _
  | parens hLevel hGap hInner ih =>
      cases hPhrase
      rw [← List.append_assoc]
      exact shape_enclosed (by simp [opensTerm]) (by decide)
        (by decide) (by decide)
  | _ => cases hPhrase

end MapStyle
