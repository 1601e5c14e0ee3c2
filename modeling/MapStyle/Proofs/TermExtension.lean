import MapStyle.Proofs.Extending
import MapStyle.Proofs.TermReading

/-
  Terms in a text that something else follows. The grammar of
  terms is written in terms of combinations of scanners, and
  each of its rules then extends itself with a greater bound
  on the nesting of brackets.

  Main statements:
    * `Grammar.extends_bracketed`
    * `Grammar.extends_rangeTerm`
    * `Grammar.extends_termWithin`
-/

namespace MapStyle

------------------------------------------------------------
-- The grammar as combinations of scanners
------------------------------------------------------------

namespace Grammar

open Scanner

section Equations

variable {α : Type} {whole : Scanner Term}

/-
  The scanners of the grammar in terms of the combinations,
  beginning with lists and brackets.
-/
theorem afterComma_eq (item : Scanner α) :
    afterComma item =
      skipping inlineBlanks
        (afterMark [','] (skipping blanks item)) :=
  rfl

/-
  A list: an item, more of them after commas, and perhaps a
  comma at the end.
-/
theorem listed_eq (item : Scanner α) :
    listed item =
      andThen item fun first =>
        andThen (repeated (afterComma item)) fun more =>
          skipping trailingComma (yield (first :: more)) :=
  rfl

/- Blanks may surround what stands in brackets. -/
theorem bracketed_eq
    (opening closing : Char)
    (inner : Scanner α) :
    bracketed opening closing inner =
      afterMark [opening]
        (skipping blanks
          (andThen inner fun a =>
            skipping blanks
              (afterMark [closing] (yield a)))) :=
  rfl

theorem listedOrEmpty_eq (item : Scanner α) :
    listedOrEmpty item =
      andThen (perhaps (listed item)) fun items =>
        yield (items.getD []) := by
  funext text
  rw [listedOrEmpty]
  split
  · rename_i items rest h
    simp [andThen, perhaps, yield, h]
  · rename_i rest h
    simp [andThen, perhaps, yield, h]

/- A keyword has a single colon after it. -/
theorem keywordArgument_eq :
    keywordArgument whole =
      andThen identifier fun name =>
        afterMark [':']
          (unlessMark [':']
            (skipping blanks
              (andThen whole fun value =>
                yield (.keyword name value)))) :=
  rfl

theorem positionalArgument_eq :
    positionalArgument whole =
      andThen whole fun value => yield (.positional value) :=
  rfl

theorem listTerm_eq :
    listTerm whole =
      andThen (bracketed '[' ']' (listedOrEmpty whole))
        fun items => yield (.list items) :=
  rfl

theorem literalTerm_eq :
    literalTerm =
      andThen literal fun value => yield (.literal value) :=
  rfl

/- A name, and perhaps arguments in parentheses. -/
theorem nameOrCall_eq :
    nameOrCall whole =
      andThen identifier fun name =>
        andThen (perhaps (parenthesized whole)) fun args =>
          yield (args.elim (bareName name) (Term.call name)) := by
  funext text
  simp only [nameOrCall, andThen, perhaps, yield]
  cases identifier text with
  | none => rfl
  | some found =>
      rcases h : optionally (parenthesized whole) found.2 with
        ⟨_ | args, rest⟩
      · simp [h]
      · simp [h]

/- A method may have no parentheses. -/
theorem methodSuffix_eq :
    methodSuffix whole =
      afterMark ['.']
        (andThen identifier fun name =>
          andThen (perhaps (parenthesized whole)) fun args =>
            yield (.method name (args.getD []))) := by
  funext text
  simp only [methodSuffix, afterMark, andThen, perhaps, yield]
  cases strip? ['.'] text with
  | none => rfl
  | some rest =>
      cases hName : identifier rest with
      | none => simp [hName]
      | some found =>
          rcases h : optionally (parenthesized whole) found.2
            with ⟨_ | args, rest⟩
          · simp [hName, h]
          · simp [hName, h]

theorem indexSuffix_eq :
    indexSuffix whole =
      andThen (bracketed '[' ']' (listed whole)) fun items =>
        yield (.index items) :=
  rfl

/- A term with all of its suffixes. -/
theorem suffixedTerm_eq :
    suffixedTerm whole =
      andThen (primary whole) fun subject =>
        andThen
            (repeated
              (either (methodSuffix whole) (indexSuffix whole)))
          fun suffixes =>
            yield (suffixes.foldl Suffix.attach subject) :=
  rfl

theorem unaryTerm_eq :
    unaryTerm whole =
      andThen (repeated sign) fun signs =>
        andThen (suffixedTerm whole) fun operand =>
          yield (signs.foldr Term.unary operand) :=
  rfl

/-
  A range that begins with its dots, or a term that may be
  the lower bound of one.
-/
theorem rangeTerm_eq :
    rangeTerm whole =
      ifMark ['.', '.']
        (andThen (bound whole) fun upper =>
          yield (.range none (some upper)))
        (andThen (orTerm whole) fun lower =>
          either
            (skipping inlineBlanks
              (afterMark ['.', '.']
                (andThen (perhaps (bound whole)) fun upper =>
                  yield (.range (some lower) upper))))
            (yield lower)) := by
  funext text
  rw [rangeTerm, ifMark]
  cases strip? ['.', '.'] text with
  | some rest => rfl
  | none =>
      simp only [andThen]
      cases orTerm whole text with
      | none => rfl
      | some found =>
          simp only [Option.bind_eq_bind, Option.bind_some,
            either, skipping, afterMark]
          cases strip? ['.', '.'] (inlineBlanks found.2) with
          | none => rfl
          | some after => rfl

theorem sign_eq :
    sign =
      either
        (afterMark ['-'] (skipping inlineBlanks (yield .neg)))
        (afterMark ['!']
          (skipping inlineBlanks (yield .not))) := by
  funext text
  rw [sign.eq_def]
  split
  · rfl
  · rfl
  · rename_i hMinus hNot
    cases text with
    | nil => rfl
    | cons c rest =>
        have hMinus : '-' ≠ c := by
          rintro rfl
          exact hMinus rest rfl
        have hNot : '!' ≠ c := by
          rintro rfl
          exact hNot rest rfl
        simp [either, afterMark, hMinus, hNot]

end Equations

section Operators

variable (operator : Scanner BinaryOp) (operand : Scanner Term)

/-
  The operator stands on the line of the term before it; the
  operand may stand on the next one.
-/
theorem operation_eq :
    operation operator operand =
      skipping inlineBlanks
        (andThen operator fun op =>
          skipping blanks
            (andThen operand fun right => yield (op, right))) :=
  rfl

theorem leftGrouped_eq :
    leftGrouped operator operand =
      andThen operand fun first =>
        andThen (repeated (operation operator operand))
          fun more =>
            yield (more.foldl Operation.attach first) :=
  rfl

theorem rightGrouped_eq :
    rightGrouped operator operand =
      andThen operand fun first =>
        andThen (repeated (operation operator operand))
          fun more => yield (groupRight first more) :=
  rfl

/- At most one comparison. -/
theorem ungrouped_eq :
    ungrouped operator operand =
      andThen operand fun left =>
        andThen (perhaps (operation operator operand))
          fun more =>
            yield (more.elim left (Operation.attach left)) := by
  funext text
  simp only [ungrouped, andThen, perhaps, yield]
  cases operand text with
  | none => rfl
  | some found =>
      rcases h :
          optionally (operation operator operand) found.2 with
        ⟨_ | more, rest⟩
      · simp [h]
      · simp [h]

end Operators

------------------------------------------------------------
-- Lists and brackets
------------------------------------------------------------

section Lists

variable {α : Type} {tail : List Char} {n : Nat}
variable {item longer : Scanner α}

/- A comma at the end is looked for on the same line. -/
theorem skips_trailingComma
    (hTail : Breaks tail) : Skips tail trailingComma := by
  constructor
  · intro text
    rw [trailingComma]
    split
    · rename_i rest hMark
      exact (passes_inlineBlanks text).trans
        (passes_of_strip? (by decide) hMark)
    · exact .none text
  · intro text hWhole
    have hLine : '\n' ∉ [','] := by decide
    simp only [trailingComma, inlineBlanks_breaks hTail hWhole,
      strip?_breaks hTail hLine]
    cases strip? [','] (inlineBlanks text) with
    | none => rfl
    | some rest => rfl

/-
  After a comma the item may begin on another line. Blanks
  may then be skipped into the tail, where no item begins.
-/
theorem extends_afterComma
    (hTail : Breaks tail)
    (hItem : ExtendsItem tail n item longer) :
    Extends tail n (afterComma item) (afterComma longer) := by
  rw [afterComma_eq, afterComma_eq]
  exact ((hItem.skippingBlanks hTail).afterMark hTail
    (by decide)).skipping (skips_inlineBlanks hTail)

/-
  A list goes on as long as there are commas, and the tail
  begins with none.
-/
theorem extends_listed
    (hTail : Breaks tail)
    (hItem : ExtendsItem tail n item longer) :
    Extends tail n (listed item) (listed longer) := by
  have hMore := (extends_afterComma hTail hItem).repeated
  rw [listed_eq, listed_eq]
  exact hItem.toExtends.andThen fun first =>
    hMore.andThen fun more =>
      (extends_yield _).skipping (skips_trailingComma hTail)

/- Without items, nothing has been read. -/
theorem extends_listedOrEmpty
    (hTail : Breaks tail)
    (hItem : ExtendsItem tail n item longer) :
    Extends tail n (listedOrEmpty item)
      (listedOrEmpty longer) := by
  rw [listedOrEmpty_eq, listedOrEmpty_eq]
  exact (extends_listed hTail hItem).perhaps.andThen
    fun items => extends_yield _

/- A list begins with its first item. -/
theorem silent_listed
    (h : Silent item) : Silent (listed item) := by
  intro text hStops
  simp [listed, h hStops]

theorem rests_listedOrEmpty
    (h : Silent item) : Rests (listedOrEmpty item) := by
  intro text items rest hStops hRead
  simp only [listedOrEmpty, optionally,
    silent_listed h hStops] at hRead
  cases hRead
  rfl

/- No bracket is closed where the text stops. -/
theorem silent_closing
    {closing : Char}
    (hClosing : closing ∉ separating)
    (hItem : Rests item) :
    Silent
      (andThen item fun a =>
        skipping blanks (afterMark [closing] (yield a))) := by
  intro text hStops
  simp only [andThen]
  cases hRead : item text with
  | none => rfl
  | some found =>
      have hRest := hItem hStops hRead
      have hSilent :
          Silent (afterMark [closing] (yield found.1)) :=
        silent_afterMark hClosing
      simpa [skipping, hRest, blanks_of_stops hStops]
        using hSilent hStops

/- Within brackets, the text is shorter. -/
theorem extends_bracketed
    {opening closing : Char}
    (hTail : Breaks tail)
    (hOpening : isMarking opening = true)
    (hClosing : closing ∈ closingBrackets)
    (hItem : Extends tail n item longer)
    (hRests : Rests item)
    (hRests' : Rests longer) :
    Extends tail (n + 1) (bracketed opening closing item)
      (bracketed opening closing longer) := by
  have hFront : [opening].all isMarking = true := by
    simp [hOpening]
  obtain ⟨hMarking, hOther⟩ :
      [closing].all isMarking = true ∧ closing ∉ separating := by
    simp only [closingBrackets, List.mem_cons,
      List.not_mem_nil, or_false] at hClosing
    rcases hClosing with rfl | rfl <;> decide
  have hEnd (a : α) :
      ExtendsItem tail n (afterMark [closing] (yield a))
        (afterMark [closing] (yield a)) :=
    ⟨(extends_yield a).afterMark hTail hMarking,
      silent_afterMark hOther, silent_afterMark hOther⟩
  have hInner :=
    hItem.andThen fun a => (hEnd a).skippingBlanks hTail
  have hBlanks := ExtendsItem.skippingBlanks hTail
    ⟨hInner, silent_closing hOther hRests,
      silent_closing hOther hRests'⟩
  rw [bracketed_eq, bracketed_eq]
  exact hBlanks.afterMark_add hTail hFront

end Lists

section Terms

variable {tail : List Char} {n : Nat}
variable {whole longer : Scanner Term}

------------------------------------------------------------
-- Arguments
------------------------------------------------------------

theorem silent_argument
    (h : Silent whole) : Silent (argument whole) :=
  fun _ hStops => argument_of_idle hStops.idle (h hStops)

/- An argument is tried with its keyword first. -/
theorem extends_argument
    (hTail : Breaks tail)
    (hWhole : ExtendsItem tail n whole longer) :
    ExtendsItem tail n (argument whole) (argument longer) := by
  have hName : Extends tail n identifier identifier :=
    extends_identifier hTail
  have hKeyword :
      Extends tail n (keywordArgument whole)
        (keywordArgument longer) := by
    rw [keywordArgument_eq, keywordArgument_eq]
    refine hName.andThen fun name => ?_
    have hValue := hWhole.andThen fun value =>
      extends_yield (Argument.keyword name value)
    exact ((hValue.skippingBlanks hTail).unlessMark hTail
      (by decide)).afterMark hTail (by decide)
  have hPositional :
      Extends tail n (positionalArgument whole)
        (positionalArgument longer) := by
    rw [positionalArgument_eq, positionalArgument_eq]
    exact hWhole.toExtends.andThen fun value => extends_yield _
  exact ⟨hKeyword.either hPositional,
    silent_argument hWhole.silent,
    silent_argument hWhole.silent'⟩

/-
  In brackets the terms are shorter by the bracket, so the
  bound on the terms inside is lower by one.
-/
theorem extends_parenthesized
    (hTail : Breaks tail)
    (hWhole : ExtendsItem tail n whole longer) :
    Extends tail (n + 1) (parenthesized whole)
      (parenthesized longer) := by
  have hArgument := extends_argument hTail hWhole
  exact extends_bracketed hTail (by decide) (by decide)
    (extends_listedOrEmpty hTail hArgument)
    (rests_listedOrEmpty hArgument.silent)
    (rests_listedOrEmpty hArgument.silent')

------------------------------------------------------------
-- Primary terms
------------------------------------------------------------

theorem extends_group
    (hTail : Breaks tail)
    (hWhole : ExtendsItem tail n whole longer) :
    Extends tail (n + 1) (group whole) (group longer) :=
  extends_bracketed hTail (by decide) (by decide)
    hWhole.toExtends hWhole.silent.rests hWhole.silent'.rests

/- The same of brackets around a list. -/
theorem extends_listTerm
    (hTail : Breaks tail)
    (hWhole : ExtendsItem tail n whole longer) :
    Extends tail (n + 1) (listTerm whole) (listTerm longer) := by
  rw [listTerm_eq, listTerm_eq]
  refine .andThen ?_ fun items => extends_yield _
  exact extends_bracketed hTail (by decide) (by decide)
    (extends_listedOrEmpty hTail hWhole)
    (rests_listedOrEmpty hWhole.silent)
    (rests_listedOrEmpty hWhole.silent')

theorem extends_literalTerm
    (hTail : Breaks tail) :
    Extends tail n literalTerm literalTerm := by
  rw [literalTerm_eq]
  exact (extends_literal hTail).andThen fun value =>
    extends_yield _

/-
  A parenthesis has to follow the name at once; the tail
  begins on a new line.
-/
theorem extends_nameOrCall
    (hTail : Breaks tail)
    (hWhole : ExtendsItem tail n whole longer) :
    Extends tail (n + 1) (nameOrCall whole)
      (nameOrCall longer) := by
  have hArgs := (extends_parenthesized hTail hWhole).perhaps
  rw [nameOrCall_eq, nameOrCall_eq]
  exact (extends_identifier hTail).andThen fun name =>
    hArgs.andThen fun args => extends_yield _

/- All alternatives pass it on, in their order. -/
theorem extends_primary
    (hTail : Breaks tail)
    (hWhole : ExtendsItem tail n whole longer) :
    Extends tail (n + 1) (primary whole) (primary longer) := by
  have hName := extends_nameOrCall hTail hWhole
  have hLiteral := (extends_literalTerm hTail).either hName
  have hList := (extends_listTerm hTail hWhole).either hLiteral
  exact (extends_group hTail hWhole).either hList

------------------------------------------------------------
-- Suffixes and signs
------------------------------------------------------------

/- The dot of a method follows its term at once. -/
theorem extends_methodSuffix
    (hTail : Breaks tail)
    (hWhole : ExtendsItem tail n whole longer) :
    Extends tail (n + 1) (methodSuffix whole)
      (methodSuffix longer) := by
  have hArgs := (extends_parenthesized hTail hWhole).perhaps
  have hName :
      Extends tail (n + 1) identifier identifier :=
    extends_identifier hTail
  rw [methodSuffix_eq, methodSuffix_eq]
  refine .afterMark hTail (by decide) ?_
  exact hName.andThen fun name =>
    hArgs.andThen fun args => extends_yield _

theorem extends_indexSuffix
    (hTail : Breaks tail)
    (hWhole : ExtendsItem tail n whole longer) :
    Extends tail (n + 1) (indexSuffix whole)
      (indexSuffix longer) := by
  rw [indexSuffix_eq, indexSuffix_eq]
  refine .andThen ?_ fun items => extends_yield _
  exact extends_bracketed hTail (by decide) (by decide)
    (extends_listed hTail hWhole)
    (silent_listed hWhole.silent).rests
    (silent_listed hWhole.silent').rests

/-
  Suffixes are read as often as possible; the tail begins
  with none.
-/
theorem extends_suffixedTerm
    (hTail : Breaks tail)
    (hWhole : ExtendsItem tail n whole longer) :
    Extends tail (n + 1) (suffixedTerm whole)
      (suffixedTerm longer) := by
  have hSuffix := (extends_methodSuffix hTail hWhole).either
    (extends_indexSuffix hTail hWhole)
  rw [suffixedTerm_eq, suffixedTerm_eq]
  exact (extends_primary hTail hWhole).andThen fun subject =>
    hSuffix.repeated.andThen fun suffixes => extends_yield _

/- A sign and the blanks after it stand on one line. -/
theorem extends_sign
    (hTail : Breaks tail) :
    Extends tail n sign sign := by
  have hOp (op : UnaryOp) :
      Extends tail n (skipping inlineBlanks (yield op))
        (skipping inlineBlanks (yield op)) :=
    (extends_yield op).skipping (skips_inlineBlanks hTail)
  rw [sign_eq]
  exact ((hOp .neg).afterMark hTail (by decide)).either
    ((hOp .not).afterMark hTail (by decide))

/- Signs, a term and its suffixes in one. -/
theorem extends_unaryTerm
    (hTail : Breaks tail)
    (hWhole : ExtendsItem tail n whole longer) :
    Extends tail (n + 1) (unaryTerm whole)
      (unaryTerm longer) := by
  rw [unaryTerm_eq, unaryTerm_eq]
  exact (extends_sign hTail).repeated.andThen fun signs =>
    (extends_suffixedTerm hTail hWhole).andThen fun operand =>
      extends_yield _

end Terms

------------------------------------------------------------
-- Operators between terms
------------------------------------------------------------

section Operators

variable {tail : List Char} {n : Nat}
variable {operator : Scanner BinaryOp}
variable {operand longer : Scanner Term}

/-
  A mark is cut off a text no matter what follows, for it
  ends before the line does.
-/
theorem extends_mark
    {text : List Char}
    (op : BinaryOp)
    (hTail : Breaks tail)
    (hMark : text.all isMarking = true) :
    Extends tail n (mark text op) (mark text op) :=
  (extends_yield op).afterMark hTail hMark

/-
  A star is not read as an operator if a second one follows
  it, but the tail begins with none.
-/
theorem extends_mulMark
    (hTail : Breaks tail) :
    Extends tail n mulMark mulMark := by
  have hStar : Extends tail n starMark starMark :=
    ((extends_yield BinaryOp.mul).unlessMark hTail
      (by decide)).afterMark hTail (by decide)
  exact hStar.either
    ((extends_mark _ hTail (by decide)).either
      (extends_mark _ hTail (by decide)))

theorem extends_addMark
    (hTail : Breaks tail) :
    Extends tail n addMark addMark :=
  (extends_mark _ hTail (by decide)).either
    (extends_mark _ hTail (by decide))

theorem extends_compareMark
    (hTail : Breaks tail) :
    Extends tail n compareMark compareMark :=
  (extends_mark _ hTail (by decide)).either
    ((extends_mark _ hTail (by decide)).either
      ((extends_mark _ hTail (by decide)).either
        ((extends_mark _ hTail (by decide)).either
          ((extends_mark _ hTail (by decide)).either
            (extends_mark _ hTail (by decide))))))

/- No operator is read across the end of a line. -/
theorem extends_operation
    (hTail : Breaks tail)
    (hOperator : Extends tail n operator operator)
    (hOperand : ExtendsItem tail n operand longer) :
    Extends tail n (operation operator operand)
      (operation operator longer) := by
  rw [operation_eq, operation_eq]
  refine .skipping (skips_inlineBlanks hTail) ?_
  refine hOperator.andThen fun op => ?_
  have hRight := hOperand.andThen fun right =>
    extends_yield (op, right)
  exact hRight.skippingBlanks hTail

/-
  How the operations are grouped does not matter here; each
  level passes on what its operator and its operand do.
-/
theorem extends_leftGrouped
    (hTail : Breaks tail)
    (hOperator : Extends tail n operator operator)
    (hOperand : ExtendsItem tail n operand longer) :
    Extends tail n (leftGrouped operator operand)
      (leftGrouped operator longer) := by
  have hMore := extends_operation hTail hOperator hOperand
  rw [leftGrouped_eq, leftGrouped_eq]
  exact hOperand.toExtends.andThen fun first =>
    hMore.repeated.andThen fun more => extends_yield _

theorem extends_rightGrouped
    (hTail : Breaks tail)
    (hOperator : Extends tail n operator operator)
    (hOperand : ExtendsItem tail n operand longer) :
    Extends tail n (rightGrouped operator operand)
      (rightGrouped operator longer) := by
  have hMore := extends_operation hTail hOperator hOperand
  rw [rightGrouped_eq, rightGrouped_eq]
  exact hOperand.toExtends.andThen fun first =>
    hMore.repeated.andThen fun more => extends_yield _

theorem extends_ungrouped
    (hTail : Breaks tail)
    (hOperator : Extends tail n operator operator)
    (hOperand : ExtendsItem tail n operand longer) :
    Extends tail n (ungrouped operator operand)
      (ungrouped operator longer) := by
  have hMore := extends_operation hTail hOperator hOperand
  rw [ungrouped_eq, ungrouped_eq]
  exact hOperand.toExtends.andThen fun left =>
    hMore.perhaps.andThen fun more => extends_yield _

end Operators

------------------------------------------------------------
-- Whole terms
------------------------------------------------------------

section Whole

variable {tail : List Char} {n : Nat}
variable {whole longer : Scanner Term}

/- No term begins where the text stops. -/
theorem silent_levelTerm
    (whole : Scanner Term)
    (p : Nat) : Silent (levelTerm whole p) :=
  fun _ hStops => levelTerm_of_idle hStops.idle p

theorem extendsItem_levelTerm
    {p : Nat}
    (h :
      Extends tail n (levelTerm whole p) (levelTerm longer p)) :
    ExtendsItem tail n (levelTerm whole p) (levelTerm longer p) :=
  ⟨h, silent_levelTerm whole p, silent_levelTerm longer p⟩

/- All levels, from the signs up to the loosest operator. -/
theorem extends_orTerm
    (hTail : Breaks tail)
    (hWhole : ExtendsItem tail n whole longer) :
    Extends tail (n + 1) (orTerm whole) (orTerm longer) := by
  have hUnary := extendsItem_levelTerm (p := 7)
    (extends_unaryTerm hTail hWhole)
  have hPow := extendsItem_levelTerm (p := 6)
    (extends_rightGrouped hTail
      (extends_mark _ hTail (by decide)) hUnary)
  have hMul := extendsItem_levelTerm (p := 5)
    (extends_leftGrouped hTail (extends_mulMark hTail) hPow)
  have hAdd := extendsItem_levelTerm (p := 4)
    (extends_leftGrouped hTail (extends_addMark hTail) hMul)
  have hCompare := extendsItem_levelTerm (p := 3)
    (extends_ungrouped hTail (extends_compareMark hTail) hAdd)
  have hAnd := extendsItem_levelTerm (p := 2)
    (extends_leftGrouped hTail
      (extends_mark _ hTail (by decide)) hCompare)
  exact extends_leftGrouped hTail
    (extends_mark _ hTail (by decide)) hAnd

theorem extends_bound
    (hTail : Breaks tail)
    (hWhole : ExtendsItem tail n whole longer) :
    Extends tail (n + 1) (bound whole) (bound longer) :=
  (extends_orTerm hTail hWhole).skipping
    (skips_inlineBlanks hTail)

/-
  The dots of a range stand on the line of its lower bound;
  the upper bound may be missing.
-/
theorem extends_rangeTerm
    (hTail : Breaks tail)
    (hWhole : ExtendsItem tail n whole longer) :
    Extends tail (n + 1) (rangeTerm whole)
      (rangeTerm longer) := by
  have hBound := extends_bound hTail hWhole
  have hFrom (lower : Term) :=
    hBound.perhaps.andThen fun upper =>
      extends_yield (Term.range (some lower) upper)
  rw [rangeTerm_eq, rangeTerm_eq]
  refine .ifMark hTail (by decide) ?_ ?_
  · exact hBound.andThen fun upper => extends_yield _
  · refine (extends_orTerm hTail hWhole).andThen fun lower => ?_
    refine .either ?_ (extends_yield lower)
    exact ((hFrom lower).afterMark hTail (by decide)).skipping
      (skips_inlineBlanks hTail)

theorem silent_termWithin (n : Nat) :
    Silent (termWithin n) := by
  cases n with
  | zero => exact fun _ _ => rfl
  | succ n => exact silent_levelTerm (termWithin n) 0

/-
  A term in a whole text is read the same when more text
  follows, and brackets may be nested deeper.
-/
theorem extends_termWithin
    {m : Nat}
    (hTail : Breaks tail)
    (hLe : n ≤ m) :
    Extends tail n (termWithin n) (termWithin m) := by
  induction n generalizing m with
  | zero =>
      constructor
      · intro text t rest h
        cases h
      · intro text hWhole hLength
        exact absurd hLength (Nat.not_lt_zero _)
  | succ n ih =>
      cases m with
      | zero => exact absurd hLe (Nat.not_succ_le_zero n)
      | succ m =>
          exact extends_rangeTerm hTail
            ⟨ih (Nat.le_of_succ_le_succ hLe),
              silent_termWithin n, silent_termWithin m⟩

end Whole

end Grammar

end MapStyle
