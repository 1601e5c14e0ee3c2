import MapStyle.Proofs.TermLevels

/-
  Written terms are read back. What stands in brackets is
  read within a smaller bound; everything else is read within
  the bound of the text that it is a part of.

  Key definitions include:
    * `Grammar.ReadsItem`
    * `Grammar.ReadsList`

  Main statements:
    * `Phrase.Written.isRead`
    * `Term.read_written`
-/

namespace MapStyle

open Scanner

namespace Grammar

------------------------------------------------------------
-- Brackets
------------------------------------------------------------

theorem mem_closers
    {closing : Char}
    (h : closing ∈ closingBrackets) : closing ∈ closers :=
  List.mem_append_left _ h

theorem blanks_closing
    {closing : Char}
    (h : closing ∈ closingBrackets)
    (rest : List Char) :
    blanks (closing :: rest) = closing :: rest := by
  simp [closingBrackets] at h
  rcases h with rfl | rfl
  · exact blanks_cons (by decide) (by decide)
  · exact blanks_cons (by decide) (by decide)

/- A closing bracket may follow any term. -/
theorem follows_closing
    {closing : Char}
    (h : closing ∈ closingBrackets)
    (rest : List Char) :
    Follows 0 (closing :: rest) :=
  .closing isSpacing_nil (mem_closers h)

theorem closes_closing
    {closing : Char}
    (h : closing ∈ closingBrackets)
    (rest : List Char) :
    Closes (closing :: rest) := by
  rintro d ⟨⟩
  exact mem_closers h

/- A gap after the opening bracket is skipped. -/
theorem bracketed_append
    {α : Type}
    {opening closing : Char}
    {inner : Scanner α}
    {gap text rest : List Char}
    {a : α}
    (hClosing : closing ∈ closingBrackets)
    (hGap : Gap gap)
    (hFront :
      blanks (text ++ closing :: rest) = text ++ closing :: rest)
    (h :
      inner (text ++ closing :: rest) =
        some (a, closing :: rest)) :
    bracketed opening closing inner
        (opening :: (gap ++ (text ++ closing :: rest))) =
      some (a, rest) := by
  simp [bracketed, blanks_append hGap, hFront, h,
    blanks_closing hClosing]

------------------------------------------------------------
-- Lists
------------------------------------------------------------

section Lists

variable {α : Type}

/- An item is read within every bound that its text fits into. -/
structure ReadsItem
    (item : Nat → Scanner α)
    (a : α)
    (text : List Char) : Prop where
  front : Opens 0 text
  read :
    ∀ {n rest}, text.length ≤ n → Follows 0 rest →
      item n (text ++ rest) = some (a, rest)

/- Items are read up to the bracket that closes them. -/
structure ReadsList
    (item : Nat → Scanner α)
    (items : List α)
    (text : List Char) : Prop where
  empty : items = [] → text = []
  front : items ≠ [] → Opens 0 text
  read :
    items ≠ [] → ∀ {n closing rest}, text.length ≤ n →
      closing ∈ closingBrackets →
        listed (item n) (text ++ closing :: rest) =
          some (items, closing :: rest)

/- A list with one item ends at its bracket. -/
theorem listed_single
    {item : Scanner α}
    {text rest : List Char}
    {closing : Char}
    {a : α}
    (hClosing : closing ∈ closingBrackets)
    (h : item text = some (a, closing :: rest)) :
    listed item text = some ([a], closing :: rest) := by
  have hBlanks :
      inlineBlanks (closing :: rest) = closing :: rest :=
    inlineBlanks_closing isSpacing_nil (mem_closers hClosing)
  have hComma : ',' ≠ closing := by
    rintro rfl
    exact absurd hClosing (by decide)
  have hMore : afterComma item (closing :: rest) = none := by
    simp [afterComma, hBlanks, hComma]
  simp [listed, h, many_of_none hMore, trailingComma, hBlanks,
    hComma]

/- Items are read one after another, as the list goes on. -/
theorem listed_cons
    {item : Scanner α}
    {accepted : α → Prop}
    {text rest blanks after : List Char}
    {a : α}
    {more : List α}
    (hYields : Yields accepted item)
    (hBlanks : IsSpacing blanks)
    (h : item text = some (a, blanks ++ ',' :: after))
    (hMore :
      listed item (Scanner.blanks after) = some (more, rest)) :
    listed item text = some (a :: more, rest) := by
  have hInline :
      inlineBlanks (blanks ++ ',' :: after) = ',' :: after :=
    inlineBlanks_closing hBlanks (by decide)
  simp only [listed, Option.bind_eq_bind,
    Option.bind_eq_some_iff, Prod.exists] at hMore
  rcases hMore with ⟨next, tail, hNext, hMore⟩
  cases hMore
  have hTail := (hYields.of_some hNext).2
  have hLength := length_blanks_le after
  have hStep :
      afterComma item (blanks ++ ',' :: after) =
        some (next, tail) := by
    simp [afterComma, hInline, hNext]
  have hMany := many_of_some hStep (by
    simp only [List.length_append, List.length_cons]
    omega)
  simp [listed, h, hMany]

theorem ReadsItem.list
    {item : Nat → Scanner α}
    {a : α}
    {text : List Char}
    (h : ReadsItem item a text) :
    ReadsList item [a] text where
  empty := by simp
  front := fun _ => h.front
  read := by
    intro _ n closing rest hBound hClosing
    exact listed_single hClosing
      (h.read hBound (follows_closing hClosing rest))

theorem ReadsList.nil
    {item : Nat → Scanner α} :
    ReadsList item [] [] where
  empty := fun _ => rfl
  front := by simp
  read := by simp

/-
  An item in front of a list that is not empty, with a comma
  between them.
-/
theorem ReadsList.cons
    {item : Nat → Scanner α}
    {accepted : α → Prop}
    {a : α}
    {items : List α}
    {text blanks gap text' : List Char}
    (hYields : ∀ n, Yields accepted (item n))
    (hItem : ReadsItem item a text)
    (hBlanks : IsSpacing blanks)
    (hGap : Gap gap)
    (hSome : items ≠ [])
    (hMore : ReadsList item items text') :
    ReadsList item (a :: items)
      (text ++ (blanks ++ ',' :: (gap ++ text'))) where
  empty := by simp
  front := fun _ => hItem.front.append _
  read := by
    intro _ n closing rest hBound hClosing
    simp only [List.length_append, List.length_cons] at hBound
    have hComma :
        Follows 0 (blanks ++
          ',' :: (gap ++ (text' ++ closing :: rest))) :=
      .closing hBlanks (by decide)
    have hRead := hItem.read (n := n) (by omega) hComma
    have hSkip :
        Scanner.blanks (gap ++ (text' ++ closing :: rest)) =
          text' ++ closing :: rest := by
      have hFront := (hMore.front hSome).append (closing :: rest)
      rw [blanks_append hGap, hFront.blanks_eq]
    have hRest :
        listed (item n) (text' ++ closing :: rest) =
          some (items, closing :: rest) :=
      hMore.read hSome (by omega) hClosing
    rw [← hSkip] at hRest
    have hListed :=
      listed_cons (hYields n) hBlanks hRead hRest
    simpa only [List.append_assoc, List.cons_append]
      using hListed

/- A list may be empty if no item begins with its bracket. -/
theorem ReadsList.listedOrEmpty
    {item : Nat → Scanner α}
    {items : List α}
    {text rest : List Char}
    {n : Nat}
    {closing : Char}
    (h : ReadsList item items text)
    (hBound : text.length ≤ n)
    (hClosing : closing ∈ closingBrackets)
    (hNone : item n (closing :: rest) = none) :
    listedOrEmpty (item n) (text ++ closing :: rest) =
      some (items, closing :: rest) := by
  by_cases hSome : items = []
  · rw [h.empty hSome, hSome]
    simp [Grammar.listedOrEmpty, optionally, listed, hNone]
  · have hRead :
        listed (item n) (text ++ closing :: rest) =
          some (items, closing :: rest) :=
      h.read hSome hBound hClosing
    simp [Grammar.listedOrEmpty, optionally, hRead]

theorem ReadsList.blanks_eq
    {item : Nat → Scanner α}
    {items : List α}
    {text : List Char}
    {closing : Char}
    (h : ReadsList item items text)
    (hClosing : closing ∈ closingBrackets)
    (rest : List Char) :
    Scanner.blanks (text ++ closing :: rest) =
      text ++ closing :: rest := by
  by_cases hSome : items = []
  · rw [h.empty hSome]
    exact blanks_closing hClosing rest
  · exact ((h.front hSome).append _).blanks_eq

end Lists

/- The items of lists and indexes. -/
def termItem (n : Nat) : Scanner Term :=
  rangeTerm (termWithin n)

/- The items of calls. -/
def argumentItem (n : Nat) : Scanner Argument :=
  argument (rangeTerm (termWithin n))

theorem yields_termItem (n : Nat) :
    Yields Term.WellFormed (termItem n) :=
  yields_rangeTerm (yields_termWithin n)

theorem yields_argumentItem (n : Nat) :
    Yields FitsArgument (argumentItem n) :=
  yields_argument (yields_termItem n)

theorem argument_of_idle
    {whole : Scanner Term}
    {text : List Char}
    (h : Idle text)
    (hWhole : whole text = none) :
    argument whole text = none := by
  have hName : identifier text = none :=
    identifier_eq_none (h.beginsOutside (by decide))
  simp [argument, either, keywordArgument, hName,
    positionalArgument, hWhole]

/- Items of lists are terms of the loosest level. -/
theorem ReadsItem.of_reads
    {t : Term}
    {text : List Char}
    (hFront : Opens 0 text)
    (h : Reads 0 t text) :
    ReadsItem termItem t text :=
  ⟨hFront, h.stop⟩

------------------------------------------------------------
-- Arguments
------------------------------------------------------------

section Arguments

variable {t : Term} {text : List Char}

/- Without a keyword the other kind of argument is tried. -/
theorem keywordArgument_of_hasNoKeyword
    {whole : Scanner Term}
    (h : HasNoKeyword text) :
    keywordArgument whole text = none := by
  cases text with
  | nil => rfl
  | cons c rest =>
      cases hStart : isNameStart c with
      | false => simp [keywordArgument, identifier, hStart]
      | true =>
          have hName := isNameChar_of_isNameStart hStart
          rw [HasNoKeyword, List.dropWhile_cons_of_pos hName]
            at h
          have hColon := strip?_of_beginsOutside (m := ':') rfl h
          simp [keywordArgument, identifier, hStart, hColon]

theorem ReadsItem.positional
    (hShape : Shape 0 text)
    (h : Reads 0 t text) :
    ReadsItem argumentItem (.positional t) text where
  front := hShape.front
  read := by
    intro n rest hBound hRest
    have hRead : rangeTerm (termWithin n) (text ++ rest) =
        some (t, rest) := h.stop hBound hRest
    rw [argumentItem, argument, either_of_none
      (keywordArgument_of_hasNoKeyword (hShape.keyword hRest))]
    simp [positionalArgument, hRead]

theorem ReadsItem.keyword
    {name : String}
    {gap : List Char}
    (hName : isName name = true)
    (hGap : Gap gap)
    (hFront : Opens 0 text)
    (h : Reads 0 t text) :
    ReadsItem argumentItem (.keyword name t)
      (name.toList ++ ':' :: (gap ++ text)) where
  front := (shape_name name hName).front.append _
  read := by
    intro n rest hBound hRest
    simp only [List.length_append, List.length_cons] at hBound
    have hRead : rangeTerm (termWithin n) (text ++ rest) =
        some (t, rest) := h.stop (by omega) hRest
    have hMark :
        BeginsOutside isNameChar
          (':' :: (gap ++ (text ++ rest))) := by
      rw [beginsOutside_cons]
      decide
    have hIdentifier := identifier_append hName hMark
    have hSkip :
        Scanner.blanks (gap ++ (text ++ rest)) = text ++ rest := by
      rw [blanks_append hGap, (hFront.append rest).blanks_eq]
    have hOutside :
        BeginsOutside (fun c => c = ':')
          (gap ++ (text ++ rest)) :=
      beginsOutside_gap hGap hFront (by simp; decide) rest
    have hSecond := strip?_of_beginsOutside (m := ':') rfl hOutside
    have hKeyword :
        keywordArgument (rangeTerm (termWithin n))
            (name.toList ++ ':' :: (gap ++ (text ++ rest))) =
          some (.keyword name t, rest) := by
      simp [keywordArgument, hIdentifier, hSecond, hSkip, hRead]
    simp only [List.append_assoc, List.cons_append]
    exact either_of_some hKeyword

end Arguments

------------------------------------------------------------
-- Primary terms
------------------------------------------------------------

section Primary

variable {t : Term} {text : List Char}

/- What is no bracket, list or literal is read as a name. -/
theorem primary_of_isNameStart
    {whole : Scanner Term}
    {c : Char}
    {rest : List Char}
    (hc : isNameStart c = true) :
    primary whole (c :: rest) = nameOrCall whole (c :: rest) := by
  have hFront : ∀ d, isNameStart d = false →
      BeginsOutside (fun e => e = d) (c :: rest) := by
    intro d hd
    rw [beginsOutside_cons]
    simp
    rintro rfl
    rw [hc] at hd
    cases hd
  have hGroup : group whole (c :: rest) = none :=
    bracketed_of_beginsOutside (by simp) (hFront '(' (by decide))
  have hList : listTerm whole (c :: rest) = none := by
    have hBracket := hFront '[' (by decide)
    simp [listTerm, bracketed_of_beginsOutside _ hBracket]
  have hDigit : BeginsOutside Char.isDigit (c :: rest) := by
    rw [beginsOutside_cons]
    exact isDigit_of_isNameStart hc
  have hMark : ∀ d ∈ ['"', '\'', ':'],
      (c :: rest).head? ≠ some d := by
    rintro d hd ⟨⟩
    simp at hd
    rcases hd with rfl | rfl | rfl <;> cases hc
  have hLiteral : literalTerm (c :: rest) = none := by
    simp [literalTerm, literal_eq_none hDigit hMark]
  rw [primary, either_of_none hGroup, either_of_none hList,
    either_of_none hLiteral]

/- A term that is read in one piece takes suffixes after it. -/
theorem Reads.of_primary
    (h :
      ∀ {n rest}, text.length ≤ n → Follows 9 rest →
        primary (termWithin n) (text ++ rest) = some (t, rest)) :
    Reads 8 t text := by
  intro n hBound rest hRest
  have hRead := h hBound hRest
  simp [levelTerm, suffixedTerm, hRead, levelResume, resume]

/- A name alone is read as what it stands for. -/
theorem Reads.bareName
    (name : String)
    (hName : isName name = true) :
    Reads 8 (Grammar.bareName name) name.toList := by
  refine Reads.of_primary ?_
  intro n rest hBound hRest
  rcases toList_of_isName hName with
    ⟨c, more, hChars, hStart, -⟩
  have hIdentifier := identifier_append hName
    (hRest.beginsOutside (by decide))
  have hCall : parenthesized (termWithin n) rest = none :=
    parenthesized_of_follows hRest
  have hRead :
      nameOrCall (termWithin n) (name.toList ++ rest) =
        some (Grammar.bareName name, rest) := by
    simp [nameOrCall, hIdentifier, optionally, hCall]
  rw [hChars, List.cons_append] at hRead ⊢
  rw [primary_of_isNameStart hStart, hRead]

theorem bareName_of_not_mem
    {name : String}
    (h : name ∉ reservedNames) :
    Grammar.bareName name = .ident name := by
  simp [reservedNames] at h
  simp [Grammar.bareName, h]

/- A literal that begins with neither bracket nor name. -/
theorem Reads.literal
    {value : Literal}
    (hFront :
      ∀ rest,
        BeginsOutside (fun c => ['(', '['].contains c)
          (text ++ rest))
    (h :
      ∀ {rest}, EndsNumber rest →
        Scanner.literal (text ++ rest) = some (value, rest)) :
    Reads 8 (.literal value) text := by
  refine Reads.of_primary ?_
  intro n rest hBound hRest
  have hOutside := hFront rest
  have hGroup : group (termWithin n) (text ++ rest) = none :=
    bracketed_of_beginsOutside (by rfl) hOutside
  have hList : listTerm (termWithin n) (text ++ rest) = none := by
    simp [listTerm, bracketed_of_beginsOutside _ hOutside]
  have hRead : literalTerm (text ++ rest) =
      some (.literal value, rest) := by
    simp [literalTerm, h hRest.endsNumber]
  rw [primary, either_of_none hGroup, either_of_none hList,
    either_of_some hRead]

theorem Reads.int
    {m : Int64}
    (h : 0 ≤ m) :
    Reads 8 (.literal (.int m))
      (Decimal.integerText m.toInt) := by
  refine Reads.literal ?_ (literal_integerText h)
  intro rest
  rw [integerText_eq_naturalText h]
  have hSome := naturalText_ne_nil m.toNatClampNeg
  rcases List.exists_cons_of_ne_nil hSome with ⟨c, more, hText⟩
  have hDigit : c.isDigit = true :=
    isDigit_of_mem_naturalText
      (n := m.toNatClampNeg) (by simp [hText])
  rw [hText, List.cons_append, beginsOutside_cons]
  simp
  constructor
  · rintro rfl
    cases hDigit
  · rintro rfl
    cases hDigit

/- A string is read back from its escaped characters. -/
theorem Reads.quoted
    {quote : Char}
    {value : String}
    (hQuote : quote = '"' ∨ quote = '\'') :
    Reads 8 (.literal (.text value)) (quotedIn quote value) := by
  refine Reads.literal ?_
    (fun _ => literal_quotedIn hQuote value _)
  intro rest
  rw [quotedIn, List.cons_append, beginsOutside_cons]
  rcases hQuote with rfl | rfl
  · decide
  · decide

/- A term in parentheses is read within a smaller bound. -/
theorem Reads.parens
    {gap : List Char}
    (hGap : Gap gap)
    (hFront : Opens 0 text)
    (h : Reads 0 t text) :
    Reads 8 t ('(' :: (gap ++ (text ++ [')']))) := by
  refine Reads.of_primary ?_
  intro n rest hBound hRest
  simp only [List.length_cons, List.length_append,
    List.length_nil] at hBound
  obtain ⟨m, rfl⟩ : ∃ m, n = m + 1 := ⟨n - 1, by omega⟩
  have hClosing : Follows 0 (')' :: rest) :=
    follows_closing (by decide) rest
  have hInner := h.stop (n := m) (by omega) hClosing
  have hGroup :
      group (termWithin (m + 1))
          ('(' :: (gap ++ (text ++ ')' :: rest))) =
        some (t, rest) :=
    bracketed_append (by decide) hGap
      (hFront.append _).blanks_eq hInner
  simp only [List.cons_append, List.append_assoc,
    List.nil_append]
  exact either_of_some hGroup

theorem Reads.list
    {items : List Term}
    {gap : List Char}
    (hGap : Gap gap)
    (h : ReadsList termItem items text) :
    Reads 8 (.list items) ('[' :: (gap ++ (text ++ [']']))) := by
  refine Reads.of_primary ?_
  intro n rest hBound hRest
  simp only [List.length_cons, List.length_append,
    List.length_nil] at hBound
  obtain ⟨m, rfl⟩ : ∃ m, n = m + 1 := ⟨n - 1, by omega⟩
  have hNone : termItem m (']' :: rest) = none :=
    rangeTerm_of_idle (closes_closing (by decide) rest).idle
  have hItems :=
    h.listedOrEmpty (by omega) (by decide) hNone
  have hBracketed :
      bracketed '[' ']' (listedOrEmpty (termItem m))
          ('[' :: (gap ++ (text ++ ']' :: rest))) =
        some (items, rest) :=
    bracketed_append (by decide) hGap
      (h.blanks_eq (by decide) rest) hItems
  have hList :
      listTerm (termWithin (m + 1))
          ('[' :: (gap ++ (text ++ ']' :: rest))) =
        some (.list items, rest) := by
    have hWhole : termWithin (m + 1) = termItem m := rfl
    simp [listTerm, hWhole, hBracketed]
  have hGroup :
      group (termWithin (m + 1))
          ('[' :: (gap ++ (text ++ ']' :: rest))) = none := by
    simp [group, bracketed]
  simp only [List.cons_append, List.append_assoc,
    List.nil_append]
  rw [primary, either_of_none hGroup, either_of_some hList]

/- Arguments in parentheses, within a smaller bound. -/
theorem parenthesized_append
    {args : List Argument}
    {gap : List Char}
    (rest : List Char)
    {m : Nat}
    (hBound : text.length ≤ m)
    (hGap : Gap gap)
    (h : ReadsList argumentItem args text) :
    parenthesized (termWithin (m + 1))
        ('(' :: (gap ++ (text ++ ')' :: rest))) =
      some (args, rest) := by
  have hIdle : Idle (')' :: rest) :=
    (closes_closing (by decide) rest).idle
  have hNone : argumentItem m (')' :: rest) = none :=
    argument_of_idle hIdle (rangeTerm_of_idle hIdle)
  have hArgs := h.listedOrEmpty hBound (by decide) hNone
  exact bracketed_append (by decide) hGap
    (h.blanks_eq (by decide) rest) hArgs

/- The parenthesis of a call follows its name. -/
theorem Reads.call
    {name : String}
    {args : List Argument}
    {gap : List Char}
    (hName : isName name = true)
    (hGap : Gap gap)
    (h : ReadsList argumentItem args text) :
    Reads 8 (.call name args)
      (name.toList ++ '(' :: (gap ++ (text ++ [')']))) := by
  refine Reads.of_primary ?_
  intro n rest hBound hRest
  simp only [List.length_cons, List.length_append,
    List.length_nil] at hBound
  obtain ⟨m, rfl⟩ : ∃ m, n = m + 1 := ⟨n - 1, by omega⟩
  rcases toList_of_isName hName with
    ⟨c, more, hChars, hStart, -⟩
  have hArgs :=
    parenthesized_append rest (m := m) (by omega) hGap h
  have hMark :
      BeginsOutside isNameChar
        ('(' :: (gap ++ (text ++ ')' :: rest))) := by
    rw [beginsOutside_cons]
    decide
  have hIdentifier := identifier_append hName hMark
  have hRead :
      nameOrCall (termWithin (m + 1))
          (name.toList ++
            '(' :: (gap ++ (text ++ ')' :: rest))) =
        some (.call name args, rest) := by
    simp [nameOrCall, hIdentifier, optionally, hArgs]
  simp only [List.cons_append, List.append_assoc,
    List.nil_append]
  rw [hChars, List.cons_append] at hRead ⊢
  rw [primary_of_isNameStart hStart, hRead]

end Primary

------------------------------------------------------------
-- Suffixes
------------------------------------------------------------

section Suffixes

variable {subject : Term} {name : String} {s s' gap : List Char}

/- A suffix goes on from its subject, whatever that ends in. -/
theorem Reads.attach
    (suffix : Suffix)
    {tail : List Char}
    (hSubject : Reads 8 subject s)
    (hFollows : ∀ rest, Follows 9 (tail ++ rest))
    (hSome : tail ≠ [])
    (h :
      ∀ {n rest}, tail.length ≤ n → Follows 9 rest →
        either (methodSuffix (termWithin n))
            (indexSuffix (termWithin n)) (tail ++ rest) =
          some (suffix, rest)) :
    Reads 8 (suffix.attach subject) (s ++ tail) := by
  intro n hBound rest hRest
  simp only [List.length_append] at hBound
  have hRead := hSubject n (by omega) (tail ++ rest)
    (hFollows rest)
  have hStep := h (n := n) (by omega) hRest
  have hTail := List.length_pos_iff.mpr hSome
  have hShorter : rest.length < (tail ++ rest).length := by
    simp only [List.length_append]
    omega
  rw [List.append_assoc, hRead, levelResume, levelResume,
    if_pos rfl, if_pos rfl, resume_of_some hStep hShorter]

theorem Reads.member
    (hSubject : Reads 8 subject s)
    (hName : isName name = true) :
    Reads 8 (.method subject name [])
      (s ++ '.' :: name.toList) := by
  rcases toList_of_isName hName with
    ⟨c, more, hChars, hStart, -⟩
  refine Reads.attach (.method name []) hSubject ?_
    (List.cons_ne_nil _ _) ?_
  · intro rest
    rw [hChars]
    exact .member (by decide) hStart
  · intro n rest hBound hRest
    have hIdentifier := identifier_append hName
      (hRest.beginsOutside (by decide))
    have hNone : parenthesized (termWithin n) rest = none :=
      parenthesized_of_follows hRest
    have hMethod :
        methodSuffix (termWithin n) ('.' :: (name.toList ++ rest)) =
          some (.method name [], rest) := by
      simp [methodSuffix, hIdentifier, optionally, hNone]
    exact either_of_some hMethod

/- A suffix goes on after any term of the tightest level. -/
theorem Reads.method
    {args : List Argument}
    (hSubject : Reads 8 subject s)
    (hName : isName name = true)
    (hGap : Gap gap)
    (h : ReadsList argumentItem args s') :
    Reads 8 (.method subject name args)
      (s ++ '.' ::
        (name.toList ++ '(' :: (gap ++ (s' ++ [')'])))) := by
  rcases toList_of_isName hName with
    ⟨c, more, hChars, hStart, -⟩
  refine Reads.attach (.method name args) hSubject ?_
    (List.cons_ne_nil _ _) ?_
  · intro rest
    rw [hChars]
    exact .member (by decide) hStart
  · intro n rest hBound hRest
    simp only [List.length_cons, List.length_append,
      List.length_nil] at hBound
    obtain ⟨m, rfl⟩ : ∃ m, n = m + 1 := ⟨n - 1, by omega⟩
    have hArgs :=
      parenthesized_append rest (m := m) (by omega) hGap h
    have hMark :
        BeginsOutside isNameChar
          ('(' :: (gap ++ (s' ++ ')' :: rest))) := by
      rw [beginsOutside_cons]
      decide
    have hIdentifier := identifier_append hName hMark
    have hMethod :
        methodSuffix (termWithin (m + 1))
            ('.' :: (name.toList ++
              '(' :: (gap ++ (s' ++ ')' :: rest)))) =
          some (.method name args, rest) := by
      simp [methodSuffix, hIdentifier, optionally, hArgs]
    simp only [List.cons_append, List.append_assoc,
      List.nil_append]
    exact either_of_some hMethod

theorem Reads.index
    {items : List Term}
    (hSubject : Reads 8 subject s)
    (hGap : Gap gap)
    (hSome : items ≠ [])
    (h : ReadsList termItem items s') :
    Reads 8 (.index subject items)
      (s ++ '[' :: (gap ++ (s' ++ [']']))) := by
  refine Reads.attach (.index items) hSubject
    (fun _ => .bracket (by decide)) (List.cons_ne_nil _ _) ?_
  intro n rest hBound hRest
  simp only [List.length_cons, List.length_append,
    List.length_nil] at hBound
  obtain ⟨m, rfl⟩ : ∃ m, n = m + 1 := ⟨n - 1, by omega⟩
  have hItems :
      listed (termItem m) (s' ++ ']' :: rest) =
        some (items, ']' :: rest) :=
    h.read hSome (by omega) (by decide)
  have hBracketed :
      bracketed '[' ']' (listed (termItem m))
          ('[' :: (gap ++ (s' ++ ']' :: rest))) =
        some (items, rest) :=
    bracketed_append (by decide) hGap
      (h.blanks_eq (by decide) rest) hItems
  have hIndex :
      indexSuffix (termWithin (m + 1))
          ('[' :: (gap ++ (s' ++ ']' :: rest))) =
        some (.index items, rest) := by
    have hWhole : termWithin (m + 1) = termItem m := rfl
    simp [indexSuffix, hWhole, hBracketed]
  have hMethod :
      methodSuffix (termWithin (m + 1))
          ('[' :: (gap ++ (s' ++ ']' :: rest))) = none := by
    simp [methodSuffix]
  simp only [List.cons_append, List.append_assoc,
    List.nil_append]
  rw [either_of_none hMethod, hIndex]

end Suffixes

end Grammar

------------------------------------------------------------
-- Whole texts
------------------------------------------------------------

/- What it is for a text to be read back as a phrase. -/
def Phrase.IsRead : Phrase → List Char → Prop
  | .term p t, s => p ≤ 8 → Grammar.Reads p t s
  | .items ts, s => Grammar.ReadsList Grammar.termItem ts s
  | .argument a, s =>
      Grammar.ReadsItem Grammar.argumentItem a s
  | .arguments args, s =>
      Grammar.ReadsList Grammar.argumentItem args s

/- A term at level 8 can be read in every place. -/
theorem Phrase.Written.isRead_of_tight
    {t : Term}
    {s : List Char}
    (h : Phrase.Written (.term 8 t) s)
    (hRead : Grammar.Reads 8 t s)
    (p : Nat) :
    Phrase.IsRead (.term p t) s :=
  fun hPlace =>
    hRead.of_le hPlace (Nat.le_refl 8)
      (h.shape (Nat.le_refl 8)).front

/-
  Every writing is read back, by induction on how the text is
  written.
-/
theorem Phrase.Written.isRead
    {phrase : Phrase}
    {s : List Char}
    (h : phrase.Written s) : phrase.IsRead s := by
  induction h with
  | @ident p name hName hFree =>
      have hRead := Grammar.Reads.bareName name hName
      rw [Grammar.bareName_of_not_mem hFree] at hRead
      exact (Written.ident hName hFree).isRead_of_tight hRead p
  | @int p n h =>
      exact (Written.int h).isRead_of_tight (.int h) p
  | @text p quote value hQuote =>
      exact (Written.text hQuote).isRead_of_tight
        (.quoted hQuote) p
  | @bool p value =>
      refine Written.bool.isRead_of_tight ?_ p
      cases value
      · exact .bareName "false" (by decide)
      · exact .bareName "true" (by decide)
  | @null p =>
      exact Written.null.isRead_of_tight
        (.bareName "nil" (by decide)) p
  | @list p items gap s hGap hItems ih =>
      exact (Written.list hGap hItems).isRead_of_tight
        (.list hGap ih) p
  | rangeTo hUpper ih =>
      intro hPlace
      exact .rangeTo (hUpper.shape (by decide)).front
        (ih (by decide))
  | rangeFrom hLower hBlanks ih =>
      intro hPlace
      exact .rangeFrom (hLower.shape (by decide)).front hBlanks
        (ih (by decide))
  | range hLower hBlanks hUpper ihLower ihUpper =>
      intro hPlace
      exact .range (hLower.shape (by decide)).front hBlanks
        (ihLower (by decide)) (hUpper.shape (by decide)).front
        (ihUpper (by decide))
  | @call p name args gap s hName hGap hArgs ih =>
      exact (Written.call hName hGap hArgs).isRead_of_tight
        (.call hName hGap ih) p
  | @member p subject name s hSubject hName ih =>
      exact (Written.member hSubject hName).isRead_of_tight
        (.member (ih (Nat.le_refl 8)) hName) p
  | @method p subject name args s gap s' hSubject hName hGap
      hArgs ihSubject ihArgs =>
      have hWritten :=
        Written.method (p := 8) hSubject hName hGap hArgs
      exact hWritten.isRead_of_tight
        (.method (ihSubject (Nat.le_refl 8)) hName hGap ihArgs) p
  | @index p subject items s gap s' hSubject hGap hItems hSome
      ihSubject ihItems =>
      have hWritten :=
        Written.index (p := 8) hSubject hGap hItems hSome
      exact hWritten.isRead_of_tight
        (.index (ihSubject (Nat.le_refl 8)) hGap hSome ihItems) p
  | @unary p op operand s hLevel hOperand ih =>
      intro hPlace
      have hWritten :
          Written (.term 7 (.unary op operand)) (op.mark :: s) :=
        .unary (Nat.le_refl 7) hOperand
      have hShape := hWritten.shape (by decide)
      have hRead := Grammar.Reads.unary op
        (hOperand.shape (by decide)).front (ih (by decide))
      exact hRead.of_le hLevel (by decide) hShape.front
  | @binary p left right op s blanks gap s' hLevel hLeft
      hBlanks hGap hRight ihLeft ihRight =>
      intro hPlace
      have hTight : op.level ≤ 8 := Nat.le_of_lt_succ op.level_lt
      have hShape :=
        (Written.binary (Nat.le_refl op.level) hLeft hBlanks hGap
          hRight).shape hTight
      have hRead := Grammar.Reads.binary
        (ihLeft op.leftLevel_le) hBlanks hGap
        (hRight.shape op.rightLevel_le).front
        (ihRight op.rightLevel_le)
      exact hRead.of_le hLevel hTight hShape.front
  | @parens p t gap s hLevel hGap hInner ih =>
      intro hPlace
      have hFront := (hInner.shape (by decide)).front
      have hRead := Grammar.Reads.parens hGap hFront
        (ih (by decide))
      exact hRead.of_le hPlace (Nat.le_refl 8)
        ⟨'(', _, rfl, by decide⟩
  | noItems => exact .nil
  | lastItem hItem ih =>
      have hFront := (hItem.shape (by decide)).front
      exact (Grammar.ReadsItem.of_reads hFront
        (ih (by decide))).list
  | item hItem hBlanks hGap hMore ihItem ihMore =>
      have hFront := (hItem.shape (by decide)).front
      exact .cons Grammar.yields_termItem
        (.of_reads hFront (ihItem (by decide)))
        hBlanks hGap (List.cons_ne_nil _ _) ihMore
  | positional hValue ih =>
      exact .positional (hValue.shape (by decide))
        (ih (by decide))
  | keyword hName hGap hValue ih =>
      exact .keyword hName hGap (hValue.shape (by decide)).front
        (ih (by decide))
  | noArguments => exact .nil
  | lastArgument hItem ih => exact Grammar.ReadsItem.list ih
  | moreArguments hItem hBlanks hGap hMore ihItem ihMore =>
      exact .cons Grammar.yields_argumentItem ihItem hBlanks
        hGap (List.cons_ne_nil _ _) ihMore

theorem isBlank_of_opensTerm
    {p : Nat}
    {c : Char}
    (h : opensTerm p c = true) :
    Text.isBlank c = false := by
  have hOpens := opensTerm_of_le (Nat.zero_le p) h
  simp [opensTerm] at hOpens
  rcases hOpens with
      ((hName | rfl | rfl | rfl | rfl) | rfl | rfl) | rfl
  · exact isBlank_of_isNameChar hName
  all_goals decide

/- Nothing is trimmed from a written term. -/
theorem Shape.trim_eq
    {p : Nat}
    {text : List Char}
    (h : Shape p text) : Text.trim text = text := by
  rcases h.front with ⟨c, more, hFront, hOpens⟩
  have hc := isBlank_of_opensTerm hOpens
  have hTrimFront : Text.trimFront text = text := by
    rw [hFront]
    simp [Text.trimFront, hc]
  rcases h.back with ⟨front, d, hBack, hd⟩
  rw [Text.trim, hTrimFront, hBack]
  simp [Text.trimFront, hd]

/- A written term is read from its text. -/
theorem Phrase.Written.read_eq
    {t : Term}
    {s : List Char}
    (h : Phrase.Written (.term 0 t) s) :
    Term.read (String.ofList s) = .ok t := by
  have hReads : Grammar.Reads 0 t s := h.isRead (by decide)
  have hStop := hReads.stop (Nat.le_refl s.length)
    (Follows.ending (p := 0))
  have hTerm : Grammar.term s = some (t, []) := by
    rw [List.append_nil] at hStop
    exact hStop
  have hShape := h.shape (by decide)
  simp [Term.read, hShape.trim_eq, hTerm, Text.allBlank]

/-
  Writing and reading agree. A well-formed term without
  fractional numbers can be written, and however it is
  written, with whatever blanks and comments and either kind
  of quotes, its text is read as the term itself. Nothing else
  is ever read: whatever text is read as a term, the term is
  well formed, and so, if it has no fractional numbers, it is
  one of those that are written and read back.
-/
theorem Term.read_written :
    (∀ t : Term, t.WellFormed → t.FloatFree →
      (∃ s, Phrase.Written (.term 0 t) s) ∧
        ∀ s, Phrase.Written (.term 0 t) s →
          Term.read (String.ofList s) = .ok t) ∧
      ∀ source t, Term.read source = .ok t →
        t.WellFormed ∧
          (t.FloatFree →
            ∃ s, Phrase.Written (.term 0 t) s ∧
              Term.read (String.ofList s) = .ok t) := by
  refine ⟨?_, ?_⟩
  · intro t hWellFormed hFree
    exact ⟨hWellFormed.exists_written hFree 0,
      fun s hs => hs.read_eq⟩
  · intro source t hRead
    have hWellFormed := Term.wellFormed_of_read hRead
    refine ⟨hWellFormed, fun hFree => ?_⟩
    rcases hWellFormed.exists_written hFree 0 with ⟨s, hs⟩
    exact ⟨s, hs, hs.read_eq⟩

/- A product of a difference and a power of two. -/
def powerProduct : Term :=
  .binary
    (.binary (.ident "a") .sub (.unary .neg (.ident "b"))) .mul
    (.binary (.literal (.int 2)) .pow
      (.unary .neg
        (.index (.ident "c")
          [.range (some (.literal (.int 5))) none])))

/- The product on two lines, with a comment on the first. -/
def powerProductText : List Char :=
  "(a--b) *#no\n 2**-c[5..]".toList

/-
  The difference has parentheses, the power and its sign have
  none, and the points after the number are those of a range.
-/
theorem Term.read_written_powerProduct :
    powerProduct.WellFormed ∧ powerProduct.FloatFree ∧
      Phrase.Written (.term 0 powerProduct) powerProductText ∧
      Term.read (String.ofList powerProductText) =
        .ok powerProduct := by
  have hName : ∀ name ∈ ["a", "b", "c"],
      isName name = true ∧ name ∉ reservedNames := by
    decide
  have ha := hName "a" (by decide)
  have hb := hName "b" (by decide)
  have hc := hName "c" (by decide)
  have hTwo : (0 : Int64) ≤ 2 := by
    decide
  have hFive : (0 : Int64) ≤ 5 := by
    decide
  have hWellFormed : powerProduct.WellFormed := by
    refine .binary trivial
      (.binary trivial (.ident ha) (.unary trivial (.ident hb)))
      (.binary trivial (.literal hTwo)
        (.unary trivial (.index (List.cons_ne_nil _ _)
          (.ident hc) (List.forall_mem_singleton.mpr ?_))))
    refine .range (.inl rfl) ?_ (by simp)
    rintro t ⟨⟩
    exact .literal hFive
  have hFree : powerProduct.FloatFree := by
    refine .binary trivial
      (.binary trivial (.ident trivial)
        (.unary trivial (.ident trivial)))
      (.binary trivial (.literal trivial)
        (.unary trivial (.index trivial (.ident trivial)
          (List.forall_mem_singleton.mpr ?_))))
    refine .range trivial ?_ (by simp)
    rintro t ⟨⟩
    exact .literal trivial
  have hSpace : Gap [' '] := .blank (by decide) .nil
  have hComment :
      Gap ('#' :: (['n', 'o'] ++ (['\n'] ++ [' ']))) :=
    .comment (by simp) (.inl rfl) hSpace
  have hDifference : Phrase.Written
      (.term 0 (.binary (.ident "a") .sub
        (.unary .neg (.ident "b")))) "a--b".toList :=
    .binary (by decide) (.ident ha.1 ha.2) isSpacing_nil
      .nil (.unary (by decide) (.ident hb.1 hb.2))
  have hPower : Phrase.Written
      (.term 6 (.binary (.literal (.int 2)) .pow
        (.unary .neg (.index (.ident "c")
          [.range (some (.literal (.int 5))) none]))))
      "2**-c[5..]".toList :=
    .binary (by decide) (.int (n := 2) hTwo) isSpacing_nil
      .nil (.unary (by decide)
        (.index (.ident hc.1 hc.2) .nil
          (.lastItem
            (.rangeFrom (.int (n := 5) hFive) isSpacing_nil))
          (List.cons_ne_nil _ _)))
  have hParens : Phrase.Written
      (.term 5 (.binary (.ident "a") .sub
        (.unary .neg (.ident "b")))) "(a--b)".toList :=
    .parens (by decide) .nil hDifference
  have hBlank : IsSpacing [' '] := by
    simp [IsSpacing, isInlineBlank]
  have hWritten :
      Phrase.Written (.term 0 powerProduct) powerProductText :=
    .binary (Nat.zero_le BinaryOp.mul.level) hParens hBlank
      hComment hPower
  exact ⟨hWellFormed, hFree, hWritten,
    (Term.read_written.1 powerProduct hWellFormed hFree).2
      powerProductText hWritten⟩

end MapStyle
