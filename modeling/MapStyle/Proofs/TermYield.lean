import MapStyle.Program.Reader
import MapStyle.Proofs.Scanning

/-
  What the grammar yields: every term that it reads is well
  formed, and no text is longer after a reading. Each scanner
  passes this on from the scanners that it is built of.

  Key definitions include:
    * `Scanner.Yields`

  Main statements:
    * `Grammar.yields_rangeTerm`
    * `Grammar.yields_termWithin`
    * `Term.wellFormed_of_read`
-/

namespace MapStyle

namespace Scanner

/-
  Whatever the scanner reads is accepted, and what remains is
  no longer than the text.
-/
structure Yields
    {α : Type}
    (accepted : α → Prop)
    (scan : Scanner α) : Prop where
  of_some :
    ∀ {text a rest}, scan text = some (a, rest) →
      accepted a ∧ rest.length ≤ text.length

------------------------------------------------------------
-- Marks and blanks
------------------------------------------------------------

/- A mark is taken off the front. -/
theorem length_of_strip?
    {mark text rest : List Char}
    (h : strip? mark text = some rest) :
    rest.length ≤ text.length := by
  rw [strip?_eq_some_iff.mp h, List.length_append]
  exact Nat.le_add_left _ _

theorem length_dropWhile_le
    (accepted : Char → Bool)
    (text : List Char) :
    (text.dropWhile accepted).length ≤ text.length :=
  (List.dropWhile_sublist accepted).length_le

/-
  A comment reaches to the end of its line, at most to that
  of the text.
-/
theorem length_comment_le (text : List Char) :
    (comment text).length ≤ text.length := by
  fun_cases comment text with
  | case1 rest after hAfter =>
      exact Nat.le_succ_of_le (length_afterComment? hAfter)
  | case2 => exact Nat.le_refl _
  | case3 => exact Nat.le_refl _

theorem length_inlineBlanks_le (text : List Char) :
    (inlineBlanks text).length ≤ text.length :=
  Nat.le_trans (length_comment_le _)
    (length_dropWhile_le isInlineBlank text)

/- Blanks and comments may alternate. -/
theorem length_blanks_le (text : List Char) :
    (blanks text).length ≤ text.length := by
  rw [blanks]
  fun_induction skipWith isLineBlank text with
  | case1 => exact Nat.le_refl _
  | case2 c rest h ih => exact Nat.le_succ_of_le ih
  | case3 rest after hAfter hSkip ih =>
      have hLength := length_afterComment? hAfter
      rw [List.length_cons]
      omega
  | case4 => exact Nat.le_refl _
  | case5 => exact Nat.le_refl _

------------------------------------------------------------
-- Combinations of scanners
------------------------------------------------------------

section Combinations

variable {α : Type} {accepted : α → Prop}
variable {first second scan item : Scanner α}

/- Either scanner may read what is accepted. -/
theorem yields_either
    (hFirst : Yields accepted first)
    (hSecond : Yields accepted second) :
    Yields accepted (either first second) := by
  constructor
  intro text a rest h
  rw [either] at h
  split at h
  · rename_i hRead
    cases h
    exact hFirst.of_some hRead
  · exact hSecond.of_some h

/-
  All of the items are accepted, by induction on the text
  that is left.
-/
theorem yields_many
    (hScan : Yields accepted scan)
    (text : List Char) :
    (∀ a ∈ (many scan text).1, accepted a) ∧
      (many scan text).2.length ≤ text.length := by
  fun_induction many scan text with
  | case1 text hNone => simp
  | case2 text a rest hRead hShorter more last hMany ih =>
      rw [hMany] at ih
      simp only [List.mem_cons]
      refine ⟨?_, Nat.le_trans ih.2 (Nat.le_of_lt hShorter)⟩
      rintro b (rfl | hb)
      · exact (hScan.of_some hRead).1
      · exact ih.1 b hb
  | case3 text a rest hRead hLonger => simp

/- What is not there is accepted. -/
theorem yields_optionally
    (hScan : Yields accepted scan)
    (text : List Char) :
    (∀ a ∈ (optionally scan text).1, accepted a) ∧
      (optionally scan text).2.length ≤ text.length := by
  rw [optionally]
  split
  · rename_i a rest hRead
    simpa using hScan.of_some hRead
  · simp

end Combinations

------------------------------------------------------------
-- Names and literals
------------------------------------------------------------

/- What is read as a name is spelled like one. -/
theorem yields_identifier :
    Yields (fun name => isName name = true) identifier := by
  constructor
  intro text name rest h
  cases text with
  | nil => simp [identifier] at h
  | cons c more =>
      rw [identifier] at h
      split at h
      · rename_i hStart
        cases h
        have hLength := length_dropWhile_le isNameChar more
        refine ⟨?_, Nat.le_succ_of_le hLength⟩
        rw [isName, String.toList_ofList]
        simp [hStart]
      · cases h

theorem yields_run
    {accepted : Char → Bool} :
    Yields (fun _ => True) (run accepted) := by
  constructor
  intro text chars rest h
  rw [run] at h
  split at h
  · cases h
  · cases h
    exact ⟨trivial, length_dropWhile_le accepted text⟩

/-
  A sign is read as an operator, so that no literal is
  negative.
-/
theorem integer?_nonneg
    {m : Nat}
    {n : Int64}
    (h : integer? m = some n) : 0 ≤ n := by
  rw [integer?] at h
  split at h
  · rename_i hLt
    cases h
    rw [Int64.le_iff_toInt_le, Int64.toInt_ofNat_of_lt hLt]
    simp
  · cases h

/- What is asked of a literal as a term. -/
def FitsLiteral (value : Literal) : Prop :=
  Term.Fits (.literal value)

/-
  Digits after `0x` stand for an integer, if it is not too
  large.
-/
theorem yields_hexadecimal :
    Yields FitsLiteral hexadecimal := by
  constructor
  intro text value rest h
  simp only [hexadecimal, Option.bind_eq_bind] at h
  split at h
  · rename_i body hMark
    simp only [Option.bind_some, Option.bind_eq_some_iff,
      Prod.exists] at h
    rcases h with ⟨digits, tail, hRun, m, -, n, hInteger, h⟩
    cases h
    have hBody := length_of_strip? hMark
    have hTail := (yields_run.of_some hRun).2
    exact ⟨integer?_nonneg hInteger, Nat.le_trans hTail hBody⟩
  · simp only [Option.bind_eq_some_iff, Prod.exists] at h
    rcases h with
      ⟨body, hMark, digits, tail, hRun, m, -, n, hInteger, h⟩
    cases h
    have hBody := length_of_strip? hMark
    have hTail := (yields_run.of_some hRun).2
    exact ⟨integer?_nonneg hInteger, Nat.le_trans hTail hBody⟩

/- With a point among its digits, a literal is a float. -/
theorem yields_decimal :
    Yields FitsLiteral decimal := by
  constructor
  intro text value rest h
  simp only [decimal, Option.bind_eq_bind,
    Option.bind_eq_some_iff, Prod.exists] at h
  rcases h with ⟨whole, tail, hWhole, after, hPoint,
    fraction, last, hFraction, h⟩
  cases h
  have hTail := (yields_run.of_some hWhole).2
  have hAfter := length_of_strip? hPoint
  have hLast := (yields_run.of_some hFraction).2
  exact ⟨trivial, by omega⟩

/- Digits alone are an integer, if it is not too large. -/
theorem yields_integer :
    Yields FitsLiteral integer := by
  constructor
  intro text value rest h
  simp only [integer, Option.bind_eq_bind,
    Option.bind_eq_some_iff, Prod.exists] at h
  rcases h with ⟨digits, tail, hRun, n, hInteger, h⟩
  cases h
  exact ⟨integer?_nonneg hInteger, (yields_run.of_some hRun).2⟩

/- An escape is two characters, so the text is never longer. -/
theorem yields_untilQuote
    {quote : Char} :
    Yields (fun _ => True) (untilQuote quote) := by
  constructor
  intro text chars rest h
  refine ⟨trivial, ?_⟩
  fun_induction untilQuote quote text generalizing chars with
  | case1 => cases h
  | case2 => cases h
  | case3 c more chars' after hRead ih =>
      cases h
      have hLength := ih hRead
      simp
      omega
  | case4 => cases h
  | case5 =>
      cases h
      simp
  | case6 c more hPlain hSingle hQuote chars' after hRead ih =>
      cases h
      exact Nat.le_succ_of_le (ih hRead)
  | case7 => cases h

/- Every text may stand between quotes. -/
theorem yields_quotedBy
    {quote : Char} :
    Yields FitsLiteral (quotedBy quote) := by
  constructor
  intro text value rest h
  simp only [quotedBy, Option.bind_eq_bind,
    Option.bind_eq_some_iff, Prod.exists] at h
  rcases h with ⟨body, hMark, chars, tail, hRead, h⟩
  cases h
  have hBody := length_of_strip? hMark
  have hTail := (yields_untilQuote.of_some hRead).2
  exact ⟨trivial, Nat.le_trans hTail hBody⟩

theorem yields_symbol :
    Yields FitsLiteral symbol := by
  constructor
  intro text value rest h
  simp only [symbol, Option.bind_eq_bind,
    Option.bind_eq_some_iff, Prod.exists] at h
  rcases h with ⟨body, hMark, name, tail, hRead, h⟩
  cases h
  have hBody := length_of_strip? hMark
  have hTail := (yields_identifier.of_some hRead).2
  exact ⟨trivial, Nat.le_trans hTail hBody⟩

/- All literals that are read fit a term. -/
theorem yields_literal :
    Yields FitsLiteral literal := by
  have hQuoted : Yields FitsLiteral quoted :=
    yields_either yields_quotedBy yields_quotedBy
  have hText := yields_either hQuoted yields_symbol
  have hInteger := yields_either yields_integer hText
  have hDecimal := yields_either yields_decimal hInteger
  exact yields_either yields_hexadecimal hDecimal

end Scanner

namespace Grammar

open Scanner

------------------------------------------------------------
-- Lists and arguments
------------------------------------------------------------

section Lists

variable {α : Type} {accepted : α → Prop} {item : Scanner α}

theorem yields_afterComma
    (hItem : Yields accepted item) :
    Yields accepted (afterComma item) := by
  constructor
  intro text a rest h
  simp only [afterComma, Option.bind_eq_bind,
    Option.bind_eq_some_iff] at h
  rcases h with ⟨body, hMark, hRead⟩
  have hYield := hItem.of_some hRead
  have hInline := length_inlineBlanks_le text
  have hBody := length_of_strip? hMark
  have hBlanks := length_blanks_le body
  exact ⟨hYield.1, by omega⟩

theorem length_trailingComma_le (text : List Char) :
    (trailingComma text).length ≤ text.length := by
  rw [trailingComma]
  split
  · rename_i rest hMark
    exact Nat.le_trans (length_of_strip? hMark)
      (length_inlineBlanks_le text)
  · exact Nat.le_refl _

/-
  A list has an item; the empty one is read by another
  scanner.
-/
theorem yields_listed
    (hItem : Yields accepted item) :
    Yields
      (fun items => items ≠ [] ∧ ∀ a ∈ items, accepted a)
      (listed item) := by
  constructor
  intro text items rest h
  simp only [listed, Option.bind_eq_bind,
    Option.bind_eq_some_iff, Prod.exists] at h
  rcases h with ⟨first, tail, hRead, h⟩
  cases h
  have hFirst := hItem.of_some hRead
  have hMore := yields_many (yields_afterComma hItem) tail
  have hComma :=
    length_trailingComma_le (many (afterComma item) tail).2
  refine ⟨⟨List.cons_ne_nil _ _, ?_⟩, by omega⟩
  intro a ha
  rcases List.mem_cons.mp ha with rfl | ha
  · exact hFirst.1
  · exact hMore.1 a ha

/- Brackets around an item change nothing about it. -/
theorem yields_bracketed
    {opening closing : Char}
    (hItem : Yields accepted item) :
    Yields accepted (bracketed opening closing item) := by
  constructor
  intro text a rest h
  simp only [bracketed, Option.bind_eq_bind,
    Option.bind_eq_some_iff, Prod.exists] at h
  rcases h with ⟨body, hOpening, inner, tail, hRead,
    after, hClosing, h⟩
  cases h
  have hBody := length_of_strip? hOpening
  have hBlanks := length_blanks_le body
  have hYield := hItem.of_some hRead
  have hTail := length_blanks_le tail
  have hAfter := length_of_strip? hClosing
  exact ⟨hYield.1, by omega⟩

theorem yields_listedOrEmpty
    (hItem : Yields accepted item) :
    Yields (fun items => ∀ a ∈ items, accepted a)
      (listedOrEmpty item) := by
  constructor
  intro text items rest h
  rw [listedOrEmpty] at h
  have hYield := yields_optionally (yields_listed hItem) text
  split at h
  · rename_i found tail hRead
    cases h
    rw [hRead] at hYield
    exact ⟨(hYield.1 items rfl).2, hYield.2⟩
  · rename_i tail hRead
    cases h
    rw [hRead] at hYield
    exact ⟨by simp, hYield.2⟩

end Lists

/- An argument that is named if it has a keyword. -/
def FitsArgument (a : Argument) : Prop :=
  a.IsNamed ∧ a.value.WellFormed

section Terms

variable {whole : Scanner Term}

/-
  A keyword is spelled like a name; if there is none, the
  argument has to be a term by itself.
-/
theorem yields_argument
    (hWhole : Yields Term.WellFormed whole) :
    Yields FitsArgument (argument whole) := by
  refine yields_either ?_ ?_
  · constructor
    intro text a rest h
    simp only [keywordArgument, Option.bind_eq_bind,
      Option.bind_eq_some_iff, Prod.exists] at h
    rcases h with ⟨name, tail, hName, body, hMark, h⟩
    split at h
    · cases h
    · simp only [Option.bind_eq_some_iff, Prod.exists] at h
      rcases h with ⟨value, last, hRead, h⟩
      cases h
      have hNamed := yields_identifier.of_some hName
      have hBody := length_of_strip? hMark
      have hBlanks := length_blanks_le body
      have hValue := hWhole.of_some hRead
      exact ⟨⟨hNamed.1, hValue.1⟩, by omega⟩
  · constructor
    intro text a rest h
    simp only [positionalArgument, Option.bind_eq_bind,
      Option.bind_eq_some_iff, Prod.exists] at h
    rcases h with ⟨value, last, hRead, h⟩
    cases h
    have hValue := hWhole.of_some hRead
    exact ⟨⟨trivial, hValue.1⟩, hValue.2⟩

theorem yields_parenthesized
    (hWhole : Yields Term.WellFormed whole) :
    Yields (fun args => ∀ a ∈ args, FitsArgument a)
      (parenthesized whole) :=
  yields_bracketed (yields_listedOrEmpty (yields_argument hWhole))

------------------------------------------------------------
-- Primary terms
------------------------------------------------------------

theorem yields_listTerm
    (hWhole : Yields Term.WellFormed whole) :
    Yields Term.WellFormed (listTerm whole) := by
  constructor
  intro text t rest h
  simp only [listTerm, Option.bind_eq_bind,
    Option.bind_eq_some_iff, Prod.exists] at h
  rcases h with ⟨items, tail, hRead, h⟩
  cases h
  have hItems :=
    (yields_bracketed (yields_listedOrEmpty hWhole)).of_some hRead
  exact ⟨.list trivial hItems.1, hItems.2⟩

theorem yields_literalTerm :
    Yields Term.WellFormed literalTerm := by
  constructor
  intro text t rest h
  simp only [literalTerm, Option.bind_eq_bind,
    Option.bind_eq_some_iff, Prod.exists] at h
  rcases h with ⟨value, tail, hRead, h⟩
  cases h
  have hValue := yields_literal.of_some hRead
  exact ⟨.literal hValue.1, hValue.2⟩

/- Some names are literals when they stand alone. -/
theorem wellFormed_bareName
    {name : String}
    (hName : isName name = true) :
    (bareName name).WellFormed := by
  rw [bareName]
  split
  · exact .literal trivial
  · split
    · exact .literal trivial
    · split
      · exact .literal trivial
      · rename_i hTrue hFalse hNil
        exact .ident
          ⟨hName, by simp [reservedNames, hTrue, hFalse, hNil]⟩

theorem wellFormed_call
    {name : String}
    {args : List Argument}
    (hName : isName name = true)
    (hArgs : ∀ a ∈ args, FitsArgument a) :
    (Term.call name args).WellFormed :=
  .call ⟨hName, fun a ha => (hArgs a ha).1⟩
    (fun a ha => (hArgs a ha).2)

/- A name is a call if arguments follow. -/
theorem yields_nameOrCall
    (hWhole : Yields Term.WellFormed whole) :
    Yields Term.WellFormed (nameOrCall whole) := by
  constructor
  intro text t rest h
  simp only [nameOrCall, Option.bind_eq_bind,
    Option.bind_eq_some_iff, Prod.exists] at h
  rcases h with ⟨name, tail, hName, h⟩
  have hNamed := yields_identifier.of_some hName
  have hArgs :=
    yields_optionally (yields_parenthesized hWhole) tail
  split at h
  · rename_i args last hRead
    cases h
    rw [hRead] at hArgs
    exact ⟨wellFormed_call hNamed.1 (hArgs.1 args rfl),
      Nat.le_trans hArgs.2 hNamed.2⟩
  · rename_i last hRead
    cases h
    rw [hRead] at hArgs
    exact ⟨wellFormed_bareName hNamed.1,
      Nat.le_trans hArgs.2 hNamed.2⟩

/-
  The terms that have no operator: the alternatives of the
  grammar, tried in order.
-/
theorem yields_primary
    (hWhole : Yields Term.WellFormed whole) :
    Yields Term.WellFormed (primary whole) := by
  have hName := yields_nameOrCall hWhole
  have hLiteral := yields_either yields_literalTerm hName
  have hList := yields_either (yields_listTerm hWhole) hLiteral
  exact yields_either (yields_bracketed hWhole) hList

------------------------------------------------------------
-- Suffixes and signs
------------------------------------------------------------

/- A suffix that makes a well-formed term of another. -/
def FitsSuffix (suffix : Suffix) : Prop :=
  ∀ subject : Term, subject.WellFormed →
    (suffix.attach subject).WellFormed

/- Methods and indices are asked of the term before them. -/
theorem yields_suffix
    (hWhole : Yields Term.WellFormed whole) :
    Yields FitsSuffix
      (either (methodSuffix whole) (indexSuffix whole)) := by
  refine yields_either ?_ ?_
  · constructor
    intro text suffix rest h
    simp only [methodSuffix, Option.bind_eq_bind,
      Option.bind_eq_some_iff, Prod.exists] at h
    rcases h with ⟨body, hMark, name, tail, hName, h⟩
    have hBody := length_of_strip? hMark
    have hNamed := yields_identifier.of_some hName
    have hLength := Nat.le_trans hNamed.2 hBody
    have hArgs :=
      yields_optionally (yields_parenthesized hWhole) tail
    split at h
    · rename_i args last hRead
      cases h
      rw [hRead] at hArgs
      have hEvery := hArgs.1 args rfl
      refine ⟨?_, Nat.le_trans hArgs.2 hLength⟩
      intro subject hSubject
      exact .method ⟨hNamed.1, fun a ha => (hEvery a ha).1⟩
        hSubject (fun a ha => (hEvery a ha).2)
    · rename_i last hRead
      cases h
      rw [hRead] at hArgs
      refine ⟨?_, Nat.le_trans hArgs.2 hLength⟩
      intro subject hSubject
      exact .method ⟨hNamed.1, by simp⟩ hSubject (by simp)
  · constructor
    intro text suffix rest h
    simp only [indexSuffix, Option.bind_eq_bind,
      Option.bind_eq_some_iff, Prod.exists] at h
    rcases h with ⟨items, tail, hRead, h⟩
    cases h
    have hItems :=
      (yields_bracketed (yields_listed hWhole)).of_some hRead
    refine ⟨?_, hItems.2⟩
    intro subject hSubject
    exact .index hItems.1.1 hSubject hItems.1.2

/- Suffixes apply from the left. -/
theorem wellFormed_foldl_suffix
    {suffixes : List Suffix}
    {subject : Term}
    (hSubject : subject.WellFormed)
    (h : ∀ suffix ∈ suffixes, FitsSuffix suffix) :
    (suffixes.foldl Suffix.attach subject).WellFormed := by
  induction suffixes generalizing subject with
  | nil => exact hSubject
  | cons suffix more ih =>
      have hFits := h suffix (by simp)
      exact ih (hFits subject hSubject)
        (fun s hs => h s (by simp [hs]))

theorem yields_suffixedTerm
    (hWhole : Yields Term.WellFormed whole) :
    Yields Term.WellFormed (suffixedTerm whole) := by
  constructor
  intro text t rest h
  simp only [suffixedTerm, Option.bind_eq_bind,
    Option.bind_eq_some_iff, Prod.exists] at h
  rcases h with ⟨subject, tail, hRead, h⟩
  cases h
  have hSubject := (yields_primary hWhole).of_some hRead
  have hSuffixes := yields_many (yields_suffix hWhole) tail
  exact ⟨wellFormed_foldl_suffix hSubject.1 hSuffixes.1,
    Nat.le_trans hSuffixes.2 hSubject.2⟩

theorem yields_sign :
    Yields (fun _ => True) sign := by
  constructor
  intro text op rest h
  refine ⟨trivial, ?_⟩
  rw [sign.eq_def] at h
  split at h
  · cases h
    exact Nat.le_succ_of_le (length_inlineBlanks_le _)
  · cases h
    exact Nat.le_succ_of_le (length_inlineBlanks_le _)
  · cases h

/- Signs apply from the right. -/
theorem wellFormed_foldr_unary
    {operand : Term}
    (signs : List UnaryOp)
    (h : operand.WellFormed) :
    (signs.foldr Term.unary operand).WellFormed := by
  induction signs with
  | nil => exact h
  | cons op more ih => exact .unary trivial ih

/- Signs in front of a term and its suffixes. -/
theorem yields_unaryTerm
    (hWhole : Yields Term.WellFormed whole) :
    Yields Term.WellFormed (unaryTerm whole) := by
  constructor
  intro text t rest h
  simp only [unaryTerm, Option.bind_eq_bind,
    Option.bind_eq_some_iff, Prod.exists] at h
  rcases h with ⟨operand, tail, hRead, h⟩
  cases h
  have hSigns := yields_many yields_sign text
  have hOperand := (yields_suffixedTerm hWhole).of_some hRead
  exact ⟨wellFormed_foldr_unary _ hOperand.1,
    Nat.le_trans hOperand.2 hSigns.2⟩

end Terms

------------------------------------------------------------
-- Operators between terms
------------------------------------------------------------

theorem yields_mark
    {text : List Char}
    {op : BinaryOp} :
    Yields (fun _ => True) (mark text op) := by
  constructor
  intro input found rest h
  simp only [mark, Option.bind_eq_bind,
    Option.bind_eq_some_iff] at h
  rcases h with ⟨tail, hMark, h⟩
  cases h
  exact ⟨trivial, length_of_strip? hMark⟩

/- A star is no operator if a second one follows. -/
theorem yields_starMark :
    Yields (fun _ => True) starMark := by
  constructor
  intro text op rest h
  simp only [starMark, Option.bind_eq_bind,
    Option.bind_eq_some_iff] at h
  rcases h with ⟨tail, hMark, h⟩
  split at h
  · cases h
  · cases h
    exact ⟨trivial, length_of_strip? hMark⟩

theorem yields_mulMark :
    Yields (fun _ => True) mulMark :=
  yields_either yields_starMark
    (yields_either yields_mark yields_mark)

theorem yields_addMark :
    Yields (fun _ => True) addMark :=
  yields_either yields_mark yields_mark

theorem yields_compareMark :
    Yields (fun _ => True) compareMark :=
  yields_either yields_mark
    (yields_either yields_mark
      (yields_either yields_mark
        (yields_either yields_mark
          (yields_either yields_mark yields_mark))))

section Operators

variable {operator : Scanner BinaryOp} {operand : Scanner Term}

/- An operator comes with the operand to its right. -/
theorem yields_operation
    (hOperator : Yields (fun _ => True) operator)
    (hOperand : Yields Term.WellFormed operand) :
    Yields (fun o => o.2.WellFormed)
      (operation operator operand) := by
  constructor
  intro text o rest h
  simp only [operation, Option.bind_eq_bind,
    Option.bind_eq_some_iff, Prod.exists] at h
  rcases h with ⟨op, body, hMark, right, tail, hRead, h⟩
  cases h
  have hInline := length_inlineBlanks_le text
  have hBody := (hOperator.of_some hMark).2
  have hBlanks := length_blanks_le body
  have hRight := hOperand.of_some hRead
  exact ⟨hRight.1, by omega⟩

/-
  Operations of one level are grouped from the left, except
  for powers.
-/
theorem wellFormed_foldl_operation
    {more : List (BinaryOp × Term)}
    {first : Term}
    (hFirst : first.WellFormed)
    (h : ∀ o ∈ more, o.2.WellFormed) :
    (more.foldl Operation.attach first).WellFormed := by
  induction more generalizing first with
  | nil => exact hFirst
  | cons o more ih =>
      exact ih (.binary trivial hFirst (h o (by simp)))
        (fun u hu => h u (by simp [hu]))

/- Powers are grouped from the right. -/
theorem wellFormed_groupRight
    {more : List (BinaryOp × Term)}
    {first : Term}
    (hFirst : first.WellFormed)
    (h : ∀ o ∈ more, o.2.WellFormed) :
    (groupRight first more).WellFormed := by
  induction more generalizing first with
  | nil => exact hFirst
  | cons o more ih =>
      have hMore := ih (h o (by simp))
        (fun u hu => h u (by simp [hu]))
      exact .binary trivial hFirst hMore

theorem yields_leftGrouped
    (hOperator : Yields (fun _ => True) operator)
    (hOperand : Yields Term.WellFormed operand) :
    Yields Term.WellFormed (leftGrouped operator operand) := by
  constructor
  intro text t rest h
  simp only [leftGrouped, Option.bind_eq_bind,
    Option.bind_eq_some_iff, Prod.exists] at h
  rcases h with ⟨first, tail, hRead, h⟩
  cases h
  have hFirst := hOperand.of_some hRead
  have hMore := yields_many (yields_operation hOperator hOperand)
    tail
  exact ⟨wellFormed_foldl_operation hFirst.1 hMore.1,
    Nat.le_trans hMore.2 hFirst.2⟩

theorem yields_rightGrouped
    (hOperator : Yields (fun _ => True) operator)
    (hOperand : Yields Term.WellFormed operand) :
    Yields Term.WellFormed (rightGrouped operator operand) := by
  constructor
  intro text t rest h
  simp only [rightGrouped, Option.bind_eq_bind,
    Option.bind_eq_some_iff, Prod.exists] at h
  rcases h with ⟨first, tail, hRead, h⟩
  cases h
  have hFirst := hOperand.of_some hRead
  have hMore := yields_many (yields_operation hOperator hOperand)
    tail
  exact ⟨wellFormed_groupRight hFirst.1 hMore.1,
    Nat.le_trans hMore.2 hFirst.2⟩

/- A comparison has at most two operands. -/
theorem yields_ungrouped
    (hOperator : Yields (fun _ => True) operator)
    (hOperand : Yields Term.WellFormed operand) :
    Yields Term.WellFormed (ungrouped operator operand) := by
  constructor
  intro text t rest h
  simp only [ungrouped, Option.bind_eq_bind,
    Option.bind_eq_some_iff, Prod.exists] at h
  rcases h with ⟨left, tail, hRead, h⟩
  have hLeft := hOperand.of_some hRead
  have hYield := yields_optionally
    (yields_operation hOperator hOperand) tail
  split at h
  · rename_i o last hMore
    cases h
    rw [hMore] at hYield
    exact ⟨.binary trivial hLeft.1 (hYield.1 o rfl),
      Nat.le_trans hYield.2 hLeft.2⟩
  · rename_i last hMore
    cases h
    rw [hMore] at hYield
    exact ⟨hLeft.1, Nat.le_trans hYield.2 hLeft.2⟩

end Operators

------------------------------------------------------------
-- Whole terms
------------------------------------------------------------

section Whole

variable {whole : Scanner Term}

/-
  The levels of operators one above the other, each on the
  terms of the one below.
-/
theorem yields_orTerm
    (hWhole : Yields Term.WellFormed whole) :
    Yields Term.WellFormed (orTerm whole) := by
  have hPowMark : Yields (fun _ => True) powMark := yields_mark
  have hAndMark : Yields (fun _ => True) andMark := yields_mark
  have hOrMark : Yields (fun _ => True) orMark := yields_mark
  have hUnary := yields_unaryTerm hWhole
  have hPow := yields_rightGrouped hPowMark hUnary
  have hMul := yields_leftGrouped yields_mulMark hPow
  have hAdd := yields_leftGrouped yields_addMark hMul
  have hCompare := yields_ungrouped yields_compareMark hAdd
  have hAnd := yields_leftGrouped hAndMark hCompare
  exact yields_leftGrouped hOrMark hAnd

theorem yields_bound
    (hWhole : Yields Term.WellFormed whole) :
    Yields Term.WellFormed (bound whole) := by
  constructor
  intro text t rest h
  have hYield := (yields_orTerm hWhole).of_some h
  exact ⟨hYield.1,
    Nat.le_trans hYield.2 (length_inlineBlanks_le text)⟩

/- A range has an upper bound or a lower one, or both. -/
theorem yields_rangeTerm
    (hWhole : Yields Term.WellFormed whole) :
    Yields Term.WellFormed (rangeTerm whole) := by
  constructor
  intro text t rest h
  rw [rangeTerm] at h
  split at h
  · rename_i body hMark
    simp only [Option.bind_eq_bind,
      Option.bind_eq_some_iff, Prod.exists] at h
    rcases h with ⟨upper, tail, hRead, h⟩
    cases h
    have hUpper := (yields_bound hWhole).of_some hRead
    have hBody := length_of_strip? hMark
    refine ⟨.range (.inr rfl) (by simp) ?_,
      Nat.le_trans hUpper.2 hBody⟩
    rintro t ⟨⟩
    exact hUpper.1
  · simp only [Option.bind_eq_bind,
      Option.bind_eq_some_iff, Prod.exists] at h
    rcases h with ⟨lower, tail, hRead, h⟩
    have hLower := (yields_orTerm hWhole).of_some hRead
    split at h
    · cases h
      exact hLower
    · rename_i after hMark
      cases h
      have hInline := length_inlineBlanks_le tail
      have hAfter := length_of_strip? hMark
      have hUpper := yields_optionally (yields_bound hWhole) after
      refine ⟨.range (.inl rfl) ?_ hUpper.1, by omega⟩
      rintro t ⟨⟩
      exact hLower.1

/- Well-formed terms are read within every bound. -/
theorem yields_termWithin (n : Nat) :
    Yields Term.WellFormed (termWithin n) := by
  induction n with
  | zero =>
      constructor
      intro text t rest h
      cases h
  | succ n ih => exact yields_rangeTerm ih

end Whole

end Grammar

/- Every term that is read is well formed. -/
theorem Term.wellFormed_of_read
    {source : String}
    {t : Term}
    (h : Term.read source = .ok t) : t.WellFormed := by
  rw [Term.read] at h
  split at h
  · rename_i t' remaining hRead
    split at h
    · cases h
      exact ((Grammar.yields_termWithin _).of_some hRead).1
    · cases h
  · cases h

end MapStyle
