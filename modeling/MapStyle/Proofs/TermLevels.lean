import MapStyle.Proofs.TermBoundary
import MapStyle.Proofs.TermYield

/-
  The levels of the grammar and what they read of a written
  term. A level that groups to the left reads a term and goes
  on from it over the operators that follow; every other
  level reads the term and stops.

  Key definitions include:
    * `Grammar.levelMark`
    * `Grammar.levelTerm`
    * `Grammar.levelResume`
    * `Grammar.Reads`

  Main statements:
    * `Grammar.Reads.of_le`
    * `Grammar.Reads.binary`
    * `Grammar.Reads.unary`
-/

namespace MapStyle

open Scanner

namespace Grammar

------------------------------------------------------------
-- The levels
------------------------------------------------------------

section Levels

variable (whole : Scanner Term)

/- Powers. -/
def powTerm : Scanner Term :=
  rightGrouped powMark (unaryTerm whole)

/- Products. -/
def mulTerm : Scanner Term :=
  leftGrouped mulMark (powTerm whole)

/- Sums. -/
def addTerm : Scanner Term :=
  leftGrouped addMark (mulTerm whole)

/- Comparisons. -/
def compareTerm : Scanner Term :=
  ungrouped compareMark (addTerm whole)

/- Conjunctions. -/
def andTerm : Scanner Term :=
  leftGrouped andMark (compareTerm whole)

/- The marks of the operators of a level. -/
def levelMark : Nat → Scanner BinaryOp
  | 1 => orMark
  | 2 => andMark
  | 3 => compareMark
  | 4 => addMark
  | 5 => mulMark
  | 6 => powMark
  | _ => fun _ => none

/- The terms of a level and all tighter ones. -/
def levelTerm : Nat → Scanner Term
  | 0 => rangeTerm whole
  | 1 => orTerm whole
  | 2 => andTerm whole
  | 3 => compareTerm whole
  | 4 => addTerm whole
  | 5 => mulTerm whole
  | 6 => powTerm whole
  | 7 => unaryTerm whole
  | _ => suffixedTerm whole

/- The levels whose operators group to the left. -/
def leftLevels : List Nat :=
  [1, 2, 4, 5]

/- Most levels are grouped to the left. -/
theorem levelTerm_of_mem
    {p : Nat}
    (h : p ∈ leftLevels) :
    levelTerm whole p =
      leftGrouped (levelMark p) (levelTerm whole (p + 1)) := by
  simp [leftLevels] at h
  rcases h with rfl | rfl | rfl | rfl <;> rfl

end Levels

------------------------------------------------------------
-- Marks of levels
------------------------------------------------------------

section Marks

variable {p : Nat} {op : BinaryOp} {rest : List Char}

/- An operator is read at its level. -/
theorem levelMark_append
    (op : BinaryOp)
    (hRest : BeginsOutside continuesMark rest) :
    levelMark op.level (op.mark ++ rest) = some (op, rest) := by
  have hEqual := strip?_of_beginsOutside (m := '=') rfl hRest
  have hStar := strip?_of_beginsOutside (m := '*') rfl hRest
  cases op <;>
    simp [levelMark, BinaryOp.level, BinaryOp.mark, orMark,
      andMark, compareMark, addMark, mulMark, starMark, powMark,
      mark, either, hEqual, hStar]

/- A looser operator is not read at a level. -/
theorem levelMark_eq_none_of_lt
    (hLevel : op.level < p)
    (hRest : BeginsOutside continuesMark rest) :
    levelMark p (op.mark ++ rest) = none := by
  have hStar := strip?_of_beginsOutside (m := '*') rfl hRest
  rw [levelMark.eq_def]
  split <;> cases op <;>
    simp_all [BinaryOp.level, BinaryOp.mark, andMark,
      compareMark, addMark, mulMark, starMark, powMark, mark,
      either]

/- No operator begins with another character. -/
theorem levelMark_eq_none_of_head
    {text : List Char}
    (h : ∀ c ∈ text.head?, c ∉ operatorStarts) :
    levelMark p text = none := by
  have hStrip : ∀ m ∈ operatorStarts, ∀ more,
      strip? (m :: more) text = none := by
    intro m hm more
    cases text with
    | nil => rfl
    | cons c text =>
        have hc : m ≠ c := by
          rintro rfl
          exact h m rfl hm
        simp [hc]
  simp only [operatorStarts, List.forall_mem_cons] at hStrip
  rw [levelMark.eq_def]
  split <;>
    simp [orMark, andMark, compareMark, addMark, mulMark,
      starMark, powMark, mark, either, hStrip]

end Marks

------------------------------------------------------------
-- What ends a term
------------------------------------------------------------

section Ends

variable {p q : Nat} {rest : List Char}

theorem inlineBlanks_closing
    {blanks : List Char}
    {c : Char}
    (hBlanks : IsSpacing blanks)
    (hc : c ∈ closers) :
    inlineBlanks (blanks ++ c :: rest) = c :: rest := by
  rw [inlineBlanks_append hBlanks]
  simp [closers, closingBrackets] at hc
  rcases hc with rfl | rfl | rfl
  · exact inlineBlanks_cons (by decide) (by decide)
  · exact inlineBlanks_cons (by decide) (by decide)
  · exact inlineBlanks_cons (by decide) (by decide)

theorem inlineBlanks_range
    {blanks : List Char}
    (hBlanks : IsSpacing blanks) :
    inlineBlanks (blanks ++ '.' :: rest) = '.' :: rest := by
  rw [inlineBlanks_append hBlanks]
  exact inlineBlanks_cons (by decide) (by decide)

theorem inlineBlanks_mark
    {blanks : List Char}
    (hBlanks : IsSpacing blanks)
    (op : BinaryOp) :
    inlineBlanks (blanks ++ (op.mark ++ rest)) =
      op.mark ++ rest := by
  rw [inlineBlanks_append hBlanks]
  rcases op.mark_eq_cons with ⟨c, hc, more, hMark⟩
  rw [hMark]
  simp [operatorStarts] at hc
  rcases hc with rfl | rfl | rfl | rfl | rfl | rfl | rfl | rfl
      | rfl | rfl | rfl <;>
    exact inlineBlanks_cons (by decide) (by decide)

/- No operator of a level follows a term in its places. -/
theorem levelMark_of_follows
    (h : Follows p rest)
    (hLevel : p ≤ q) :
    levelMark q (inlineBlanks rest) = none := by
  cases h with
  | ending => exact levelMark_eq_none_of_head (by simp)
  | closing hBlanks hc =>
      rw [inlineBlanks_closing hBlanks hc]
      refine levelMark_eq_none_of_head ?_
      rintro d ⟨⟩
      simp [closers, closingBrackets] at hc
      rcases hc with rfl | rfl | rfl <;> decide
  | range hp hBlanks =>
      rw [inlineBlanks_range hBlanks]
      refine levelMark_eq_none_of_head ?_
      rintro d ⟨⟩
      decide
  | @operator _ _ op hp hBlanks hRest =>
      rw [inlineBlanks_mark hBlanks]
      exact levelMark_eq_none_of_lt (by omega) hRest
  | member =>
      refine levelMark_eq_none_of_head ?_
      rw [inlineBlanks_cons (by decide) (by decide)]
      rintro d ⟨⟩
      decide
  | bracket =>
      refine levelMark_eq_none_of_head ?_
      rw [inlineBlanks_cons (by decide) (by decide)]
      rintro d ⟨⟩
      decide

theorem operation_of_follows
    {operand : Scanner Term}
    (h : Follows p rest)
    (hLevel : p ≤ q) :
    operation (levelMark q) operand rest = none := by
  simp [operation, levelMark_of_follows h hLevel]

/- No range begins after a term at the loosest level. -/
theorem strip?_range_of_follows
    (h : Follows 0 rest) :
    strip? ['.', '.'] (inlineBlanks rest) = none := by
  cases h with
  | ending => rfl
  | closing hBlanks hc =>
      rw [inlineBlanks_closing hBlanks hc]
      simp [closers, closingBrackets] at hc
      rcases hc with rfl | rfl | rfl <;> simp
  | range hp => cases hp
  | operator hp => cases hp
  | member hp => cases hp
  | bracket hp => cases hp

theorem bracketed_of_beginsOutside
    {α : Type}
    {accepted : Char → Bool}
    {opening closing : Char}
    {inner : Scanner α}
    {text : List Char}
    (hOpening : accepted opening = true)
    (h : BeginsOutside accepted text) :
    bracketed opening closing inner text = none := by
  simp [bracketed, strip?_of_beginsOutside hOpening h]

/- No call follows a name that ends a term. -/
theorem parenthesized_of_follows
    {whole : Scanner Term}
    (h : Follows p rest) :
    parenthesized whole rest = none := by
  have hFront : BeginsOutside (fun c => c = '(') rest :=
    h.beginsOutside (by decide)
  exact bracketed_of_beginsOutside rfl hFront

/- No suffix follows a term that nothing is attached to. -/
theorem suffix_of_follows
    {whole : Scanner Term}
    (h : Follows 8 rest) :
    either (methodSuffix whole) (indexSuffix whole) rest =
      none := by
  have hIndex : strip? ['['] rest = none := by
    cases hStrip : strip? ['['] rest with
    | none => rfl
    | some after =>
        rw [strip?_eq_some_iff.mp hStrip] at h
        exact absurd h.of_bracket (by decide)
  have hMethod : ∀ after, strip? ['.'] rest = some after →
      identifier after = none := by
    intro after hStrip
    rw [strip?_eq_some_iff.mp hStrip] at h
    rcases h.of_point with ⟨more, rfl⟩ | ⟨hLevel, -⟩
    · exact identifier_eq_none (by rw [beginsOutside_cons]; decide)
    · exact absurd hLevel (by decide)
  have hNoIndex : indexSuffix whole rest = none := by
    simp [indexSuffix, bracketed, hIndex]
  rw [either_of_none ?_, hNoIndex]
  cases hStrip : strip? ['.'] rest with
  | none => simp [methodSuffix, hStrip]
  | some after =>
      simp [methodSuffix, hStrip, hMethod after hStrip]

end Ends

------------------------------------------------------------
-- Reading on
------------------------------------------------------------

section Resume

variable {β : Type}

/- A term with as much as can be attached to it. -/
def resume
    (step : Scanner β)
    (attach : Term → β → Term)
    (t : Term)
    (rest : List Char) : Term × List Char :=
  ((many step rest).1.foldl attach t, (many step rest).2)

/-
  Reading is resumed after each operand until no operator
  follows.
-/
theorem resume_of_none
    {step : Scanner β}
    {attach : Term → β → Term}
    {t : Term}
    {rest : List Char}
    (h : step rest = none) :
    resume step attach t rest = (t, rest) := by
  simp [resume, many_of_none h]

theorem resume_of_some
    {step : Scanner β}
    {attach : Term → β → Term}
    {t : Term}
    {b : β}
    {text rest : List Char}
    (h : step text = some (b, rest))
    (hShorter : rest.length < text.length) :
    resume step attach t text =
      resume step attach (attach t b) rest := by
  simp [resume, many_of_some h hShorter]

end Resume

/-
  How a level goes on from a term: over suffixes, over the
  operators of a level that groups to the left, or not at all.
-/
def levelResume
    (whole : Scanner Term)
    (p : Nat)
    (t : Term)
    (rest : List Char) : Term × List Char :=
  if p = 8 then
    resume (either (methodSuffix whole) (indexSuffix whole))
      Suffix.attach t rest
  else if p ∈ leftLevels then
    resume (operation (levelMark p) (levelTerm whole (p + 1)))
      Operation.attach t rest
  else
    (t, rest)

/- The level of what may follow where a level goes on. -/
def reach (p : Nat) : Nat :=
  if p = 8 ∨ p ∈ leftLevels then p + 1 else p

/-
  A level reads a text as a term and goes on from it, within
  every bound that the text fits into.
-/
def Reads
    (p : Nat)
    (t : Term)
    (text : List Char) : Prop :=
  ∀ n, text.length ≤ n → ∀ rest, Follows (reach p) rest →
    levelTerm (termWithin n) p (text ++ rest) =
      some (levelResume (termWithin n) p t rest)

theorem le_reach (p : Nat) : p ≤ reach p := by
  rw [reach]
  split
  · exact Nat.le_succ p
  · exact Nat.le_refl p

/-
  A text that follows a term of the level does not go on
  with it.
-/
theorem levelResume_of_follows
    {whole : Scanner Term}
    {p : Nat}
    {t : Term}
    {rest : List Char}
    (h : Follows p rest) :
    levelResume whole p t rest = (t, rest) := by
  rw [levelResume]
  split
  · rename_i hp
    subst hp
    exact resume_of_none (suffix_of_follows h)
  · split
    · exact resume_of_none (operation_of_follows h (Nat.le_refl p))
    · rfl

/- A level stops where nothing of it follows. -/
theorem Reads.stop
    {p n : Nat}
    {t : Term}
    {text rest : List Char}
    (h : Reads p t text)
    (hBound : text.length ≤ n)
    (hRest : Follows p rest) :
    levelTerm (termWithin n) p (text ++ rest) =
      some (t, rest) := by
  rw [h n hBound rest (hRest.of_le (le_reach p)),
    levelResume_of_follows hRest]

------------------------------------------------------------
-- From level to level
------------------------------------------------------------

theorem leftGrouped_of_some
    {operator : Scanner BinaryOp}
    {operand : Scanner Term}
    {text rest : List Char}
    {t : Term}
    (h : operand text = some (t, rest)) :
    leftGrouped operator operand text =
      some (resume (operation operator operand)
        Operation.attach t rest) := by
  simp [leftGrouped, h, resume]

theorem strip?_range_of_opens
    {p : Nat}
    {text : List Char}
    (h : Opens p text)
    (hLevel : 0 < p) :
    strip? ['.', '.'] text = none := by
  rcases h with ⟨c, more, rfl, hc⟩
  have hPoint : '.' ≠ c := by
    rintro rfl
    have hLoose : p = 0 := by
      simpa [opensTerm, isNameChar] using hc
    omega
  simp [hPoint]

theorem sign_of_opens
    {text : List Char}
    (h : Opens 8 text) :
    sign text = none := by
  rcases h with ⟨c, more, rfl, hc⟩
  rw [sign.eq_def]
  split
  · rename_i hText
    cases hText
    cases hc
  · rename_i hText
    cases hText
    cases hc
  · rfl

/- A term is a range only if its dots follow. -/
theorem rangeTerm_of_some
    {whole : Scanner Term}
    {text rest : List Char}
    {t : Term}
    (hFront : strip? ['.', '.'] text = none)
    (h : orTerm whole text = some (t, rest))
    (hRest : strip? ['.', '.'] (inlineBlanks rest) = none) :
    rangeTerm whole text = some (t, rest) := by
  simp [rangeTerm, hFront, h, hRest]

theorem ungrouped_of_none
    {operator : Scanner BinaryOp}
    {operand : Scanner Term}
    {text rest : List Char}
    {t : Term}
    (h : operand text = some (t, rest))
    (hRest : operation operator operand rest = none) :
    ungrouped operator operand text = some (t, rest) := by
  simp [ungrouped, h, optionally, hRest]

theorem ungrouped_of_some
    {operator : Scanner BinaryOp}
    {operand : Scanner Term}
    {text middle rest : List Char}
    {left right : Term}
    {op : BinaryOp}
    (hLeft : operand text = some (left, middle))
    (hMore :
      operation operator operand middle =
        some ((op, right), rest)) :
    ungrouped operator operand text =
      some (.binary left op right, rest) := by
  simp [ungrouped, hLeft, optionally, hMore, Operation.attach]

theorem rightGrouped_of_none
    {operator : Scanner BinaryOp}
    {operand : Scanner Term}
    {text rest : List Char}
    {t : Term}
    (h : operand text = some (t, rest))
    (hRest : operation operator operand rest = none) :
    rightGrouped operator operand text = some (t, rest) := by
  simp [rightGrouped, h, many_of_none hRest, groupRight]

theorem unaryTerm_of_none
    {whole : Scanner Term}
    {text : List Char}
    (h : sign text = none) :
    unaryTerm whole text = suffixedTerm whole text := by
  simp only [unaryTerm, many_of_none h]
  cases suffixedTerm whole text <;> rfl

/-
  What a level reads, the next looser one reads too. It finds
  no operator, sign or range of its own.
-/
theorem Reads.of_succ
    {p : Nat}
    {t : Term}
    {text : List Char}
    (hLevel : p < 8)
    (hFront : Opens (p + 1) text)
    (h : Reads (p + 1) t text) :
    Reads p t text := by
  intro n hBound rest hRest
  by_cases hLeft : p ∈ leftLevels
  · have hReach : reach p = p + 1 := by
      simp [reach, hLeft]
    rw [hReach] at hRest
    rw [levelTerm_of_mem _ hLeft,
      leftGrouped_of_some (h.stop hBound hRest)]
    have hp : p ≠ 8 := by omega
    simp [levelResume, hp, hLeft]
  · have hReach : reach p = p := by
      have hp : p ≠ 8 := by omega
      simp [reach, hLeft, hp]
    rw [hReach] at hRest
    have hStop := h.stop hBound (hRest.of_le (Nat.le_succ p))
    rw [levelResume_of_follows hRest]
    have hp : p = 0 ∨ p = 3 ∨ p = 6 ∨ p = 7 := by
      simp [leftLevels] at hLeft
      omega
    rcases hp with rfl | rfl | rfl | rfl
    · have hPoints := strip?_range_of_opens (hFront.append rest)
        (by decide)
      exact rangeTerm_of_some hPoints hStop
        (strip?_range_of_follows hRest)
    · exact ungrouped_of_none hStop
        (operation_of_follows (q := 3) hRest (Nat.le_refl 3))
    · exact rightGrouped_of_none hStop
        (operation_of_follows (q := 6) hRest (Nat.le_refl 6))
    · have hSign := sign_of_opens (hFront.append rest)
      exact (unaryTerm_of_none hSign).trans hStop

/- What a level reads, every looser one reads too. -/
theorem Reads.of_le
    {p q : Nat}
    {t : Term}
    {text : List Char}
    (hLevel : p ≤ q)
    (hTight : q ≤ 8)
    (hFront : Opens q text)
    (h : Reads q t text) :
    Reads p t text := by
  induction hLevel with
  | refl => exact h
  | @step q hLevel ih =>
      have hSucc := Reads.of_succ hTight hFront h
      exact ih (Nat.le_of_succ_le hTight)
        (hFront.of_le (Nat.le_succ q)) hSucc

------------------------------------------------------------
-- Operators between terms
------------------------------------------------------------

section Binary

variable {p : Nat} {op : BinaryOp} {left right : Term}
variable {s blanks gap s' rest : List Char}

/- What may stand before an operand is skipped. -/
theorem blanks_gap_append
    (hGap : Gap gap)
    (hFront : Opens p s')
    (rest : List Char) :
    Scanner.blanks (gap ++ (s' ++ rest)) = s' ++ rest := by
  rw [blanks_append hGap, (hFront.append rest).blanks_eq]

/- An operator and the operand on its right. -/
theorem operation_append
    {operand : Scanner Term}
    (op : BinaryOp)
    (hBlanks : IsSpacing blanks)
    (hGap : Gap gap)
    (hFront : Opens p s')
    (h : operand (s' ++ rest) = some (right, rest)) :
    operation (levelMark op.level) operand
        (blanks ++ (op.mark ++ (gap ++ (s' ++ rest)))) =
      some ((op, right), rest) := by
  have hMark := levelMark_append op
    (beginsOutside_continuesMark hGap hFront rest)
  simp [operation, inlineBlanks_mark hBlanks, hMark,
    blanks_gap_append hGap hFront, h]

theorem length_lt_of_mark
    (op : BinaryOp)
    (before after : List Char) :
    after.length < (before ++ (op.mark ++ after)).length := by
  rcases op.mark_eq_cons with ⟨c, -, more, hMark⟩
  rw [hMark]
  simp
  omega

/- The three ways in which the operators of a level group. -/
theorem sides_of_level (op : BinaryOp) :
    (op.level ∈ leftLevels ∧ op.leftLevel = op.level ∧
        op.rightLevel = op.level + 1) ∨
      (op.level = 3 ∧ op.leftLevel = 4 ∧ op.rightLevel = 4) ∨
      (op.level = 6 ∧ op.leftLevel = 7 ∧ op.rightLevel = 6) := by
  cases op <;> decide

/-
  An operator that groups to the left goes on from its left
  operand, whatever grouped into that.
-/
theorem Reads.binary_left
    (hLevel : op.level ∈ leftLevels)
    (hLeft : Reads op.level left s)
    (hBlanks : IsSpacing blanks)
    (hGap : Gap gap)
    (hFront : Opens p s')
    (hRight : Reads (op.level + 1) right s') :
    Reads op.level (.binary left op right)
      (s ++ (blanks ++ (op.mark ++ (gap ++ s')))) := by
  have hReach : reach op.level = op.level + 1 := by
    simp [reach, hLevel]
  intro n hBound rest hRest
  rw [hReach] at hRest
  simp only [List.length_append] at hBound
  have hFollows :
      Follows (reach op.level)
        (blanks ++ (op.mark ++ (gap ++ (s' ++ rest)))) :=
    follows_operator hBlanks hGap hFront (by omega) rest
  have hOperation := operation_append op hBlanks hGap hFront
    (hRight.stop (n := n) (by omega) hRest)
  have hShorter :
      rest.length <
        (blanks ++ (op.mark ++ (gap ++ (s' ++ rest)))).length := by
    have hMark := length_lt_of_mark op blanks
      (gap ++ (s' ++ rest))
    simp only [List.length_append] at hMark ⊢
    omega
  have hLoose : op.level ≠ 8 := by
    intro hTight
    rw [hTight] at hLevel
    exact absurd hLevel (by decide)
  have hRead := hLeft n (by omega) _ hFollows
  simp only [List.append_assoc]
  rw [hRead, levelResume, levelResume, if_neg hLoose,
    if_neg hLoose, if_pos hLevel, if_pos hLevel,
    resume_of_some hOperation hShorter]
  rfl

/- A comparison has no other comparison as an operand. -/
theorem Reads.binary_compare
    (hLevel : op.level = 3)
    (hLeft : Reads 4 left s)
    (hBlanks : IsSpacing blanks)
    (hGap : Gap gap)
    (hFront : Opens p s')
    (hRight : Reads 4 right s') :
    Reads op.level (.binary left op right)
      (s ++ (blanks ++ (op.mark ++ (gap ++ s')))) := by
  intro n hBound rest hRest
  have hRest : Follows 3 rest := by
    simpa [hLevel, reach, leftLevels] using hRest
  simp only [List.length_append] at hBound
  have hFollows :
      Follows 4 (blanks ++ (op.mark ++ (gap ++ (s' ++ rest)))) :=
    follows_operator hBlanks hGap hFront (by omega) rest
  have hOperation := operation_append op hBlanks hGap hFront
    (hRight.stop (n := n) (by omega)
      (hRest.of_le (by decide)))
  have hRead := hLeft.stop (n := n) (by omega) hFollows
  rw [hLevel] at hOperation
  rw [hLevel, levelResume_of_follows hRest]
  simp only [List.append_assoc]
  exact ungrouped_of_some hRead hOperation

/-
  Powers are read by recursion on the right: the operands
  after an operator are grouped before it is applied.
-/
theorem rightGrouped_of_some
    {operator : Scanner BinaryOp}
    {operand : Scanner Term}
    {accepted : Term → Prop}
    {text middle after : List Char}
    (hOperand : Yields accepted operand)
    (hLeft : operand text = some (left, middle))
    (hMark : operator (inlineBlanks middle) = some (op, after))
    (hShorter : (Scanner.blanks after).length < middle.length)
    (hRight :
      rightGrouped operator operand (Scanner.blanks after) =
        some (right, rest)) :
    rightGrouped operator operand text =
      some (.binary left op right, rest) := by
  simp only [rightGrouped, Option.bind_eq_bind,
    Option.bind_eq_some_iff, Prod.exists] at hRight
  rcases hRight with ⟨first, tail, hFirst, hMore⟩
  cases hMore
  have hTail := (hOperand.of_some hFirst).2
  have hStep :
      operation operator operand middle =
        some ((op, first), tail) := by
    simp [operation, hMark, hFirst]
  have hMany := many_of_some hStep (by omega)
  simp [rightGrouped, hLeft, hMany, groupRight]

/- A power may be the exponent of another without parentheses. -/
theorem Reads.binary_pow
    (hLevel : op.level = 6)
    (hLeft : Reads 7 left s)
    (hBlanks : IsSpacing blanks)
    (hGap : Gap gap)
    (hFront : Opens p s')
    (hRight : Reads 6 right s') :
    Reads op.level (.binary left op right)
      (s ++ (blanks ++ (op.mark ++ (gap ++ s')))) := by
  intro n hBound rest hRest
  have hRest : Follows 6 rest := by
    simpa [hLevel, reach, leftLevels] using hRest
  simp only [List.length_append] at hBound
  have hFollows :
      Follows 7 (blanks ++ (op.mark ++ (gap ++ (s' ++ rest)))) :=
    follows_operator hBlanks hGap hFront (by omega) rest
  have hRead := hLeft.stop (n := n) (by omega) hFollows
  have hMark :
      levelMark 6 (inlineBlanks
          (blanks ++ (op.mark ++ (gap ++ (s' ++ rest))))) =
        some (op, gap ++ (s' ++ rest)) := by
    rw [inlineBlanks_mark hBlanks, ← hLevel]
    exact levelMark_append op
      (beginsOutside_continuesMark hGap hFront rest)
  have hPower := hRight.stop (n := n) (by omega) hRest
  rw [← blanks_gap_append hGap hFront rest] at hPower
  have hShorter :
      (Scanner.blanks (gap ++ (s' ++ rest))).length <
        (blanks ++ (op.mark ++ (gap ++ (s' ++ rest)))).length :=
    Nat.lt_of_le_of_lt (length_blanks_le _)
      (length_lt_of_mark op blanks _)
  rw [hLevel, levelResume_of_follows hRest]
  simp only [List.append_assoc]
  exact rightGrouped_of_some
    (yields_unaryTerm (yields_termWithin n)) hRead hMark
    hShorter hPower

/- An operator and its operands are read at its level. -/
theorem Reads.binary
    (hLeft : Reads op.leftLevel left s)
    (hBlanks : IsSpacing blanks)
    (hGap : Gap gap)
    (hFront : Opens p s')
    (hRight : Reads op.rightLevel right s') :
    Reads op.level (.binary left op right)
      (s ++ (blanks ++ (op.mark ++ (gap ++ s')))) := by
  rcases sides_of_level op with
      ⟨hLevel, hSides⟩ | ⟨hLevel, hSides⟩ | ⟨hLevel, hSides⟩
  · rw [hSides.1] at hLeft
    rw [hSides.2] at hRight
    exact .binary_left hLevel hLeft hBlanks hGap hFront hRight
  · rw [hSides.1] at hLeft
    rw [hSides.2] at hRight
    exact .binary_compare hLevel hLeft hBlanks hGap hFront hRight
  · rw [hSides.1] at hLeft
    rw [hSides.2] at hRight
    exact .binary_pow hLevel hLeft hBlanks hGap hFront hRight

end Binary

------------------------------------------------------------
-- Signs
------------------------------------------------------------

/- A sign belongs to all that is read after it. -/
theorem unaryTerm_mark
    {whole : Scanner Term}
    (op : UnaryOp)
    {text rest : List Char}
    {t : Term}
    (hBlanks : inlineBlanks text = text)
    (h : unaryTerm whole text = some (t, rest)) :
    unaryTerm whole (op.mark :: text) =
      some (.unary op t, rest) := by
  have hSign : sign (op.mark :: text) = some (op, text) := by
    cases op
    · simp [sign, UnaryOp.mark, hBlanks]
    · simp [sign, UnaryOp.mark, hBlanks]
  have hMany := many_of_some hSign (by simp)
  simp only [unaryTerm, Option.bind_eq_bind,
    Option.bind_eq_some_iff, Prod.exists] at h ⊢
  rcases h with ⟨operand, tail, hRead, h⟩
  cases h
  refine ⟨operand, rest, ?_, ?_⟩
  · rw [hMany]
    exact hRead
  · rw [hMany]
    rfl

theorem Reads.unary
    (op : UnaryOp)
    {operand : Term}
    {s : List Char}
    (hFront : Opens 7 s)
    (h : Reads 7 operand s) :
    Reads 7 (.unary op operand) (op.mark :: s) := by
  intro n hBound rest hRest
  have hRest : Follows 7 rest := hRest
  simp only [List.length_cons] at hBound
  have hRead := h.stop (n := n) (by omega) hRest
  rw [levelResume_of_follows hRest]
  exact unaryTerm_mark op (hFront.append rest).inlineBlanks_eq
    hRead

------------------------------------------------------------
-- Ranges
------------------------------------------------------------

section Ranges

variable {lower upper : Term} {s s' blanks : List Char}

theorem bound_of_opens
    {whole : Scanner Term}
    {p : Nat}
    {text rest : List Char}
    {t : Term}
    (hFront : Opens p text)
    (h : orTerm whole (text ++ rest) = some (t, rest)) :
    bound whole (text ++ rest) = some (t, rest) := by
  rw [bound, (hFront.append rest).inlineBlanks_eq, h]

theorem Reads.rangeTo
    (hFront : Opens 1 s)
    (h : Reads 1 upper s) :
    Reads 0 (.range none (some upper)) ('.' :: '.' :: s) := by
  intro n hBound rest hRest
  have hRest : Follows 0 rest := hRest
  simp only [List.length_cons] at hBound
  have hRead := h.stop (n := n) (by omega)
    (hRest.of_le (by decide))
  have hUpper := bound_of_opens hFront hRead
  rw [levelResume_of_follows hRest]
  simp [levelTerm, rangeTerm, hUpper]

theorem rangeTerm_of_points
    {whole : Scanner Term}
    {text : List Char}
    (hFront : Opens 1 s)
    (hBlanks : IsSpacing blanks)
    (h :
      orTerm whole (s ++ (blanks ++ '.' :: '.' :: text)) =
        some (lower, blanks ++ '.' :: '.' :: text)) :
    rangeTerm whole (s ++ (blanks ++ '.' :: '.' :: text)) =
      some (.range (some lower)
          (optionally (bound whole) text).1,
        (optionally (bound whole) text).2) := by
  have hPoints := strip?_range_of_opens
    (hFront.append (blanks ++ '.' :: '.' :: text)) (by decide)
  simp [rangeTerm, hPoints, h, inlineBlanks_range hBlanks]

/- The bounds of a range are terms of the next level. -/
theorem Reads.range
    (hFront : Opens 1 s)
    (hBlanks : IsSpacing blanks)
    (hLower : Reads 1 lower s)
    (hFront' : Opens 1 s')
    (hUpper : Reads 1 upper s') :
    Reads 0 (.range (some lower) (some upper))
      (s ++ (blanks ++ '.' :: '.' :: s')) := by
  intro n hBound rest hRest
  have hRest : Follows 0 rest := hRest
  simp only [List.length_append, List.length_cons] at hBound
  have hReadUpper := bound_of_opens hFront'
    (hUpper.stop (n := n) (by omega) (hRest.of_le (by decide)))
  have hFollows :
      Follows 1 (blanks ++ '.' :: '.' :: (s' ++ rest)) :=
    .range (by decide) hBlanks
  have hReadLower := hLower.stop (n := n) (by omega) hFollows
  have hRange := rangeTerm_of_points hFront hBlanks hReadLower
  rw [levelResume_of_follows hRest]
  simp only [List.append_assoc, List.cons_append]
  simpa [levelTerm, optionally, hReadUpper] using hRange

/- The text is empty or closes what a term stands in. -/
def Closes (text : List Char) : Prop :=
  ∀ c ∈ text.head?, c ∈ closers

/- The characters around statements and their blocks. -/
def separating : List Char :=
  [';', '\x7b', '\x7d']

/- The text is empty or begins with what begins no term. -/
def Idle (text : List Char) : Prop :=
  ∀ c ∈ text.head?, c ∈ closers ++ separating

theorem Closes.idle
    {text : List Char}
    (h : Closes text) : Idle text :=
  fun c hc => List.mem_append_left separating (h c hc)

theorem Idle.beginsOutside
    {accepted : Char → Bool}
    {text : List Char}
    (h : Idle text)
    (hOutside :
      (closers ++ separating).all (fun c => !accepted c) =
        true) :
    BeginsOutside accepted text := by
  intro c hc
  rw [List.all_eq_true] at hOutside
  simpa using hOutside c (h c hc)

/- No term begins with what closes or separates others. -/
theorem primary_of_idle
    {whole : Scanner Term}
    {text : List Char}
    (h : Idle text) :
    primary whole text = none := by
  have hGroup : group whole text = none := by
    have hFront : BeginsOutside (fun c => c = '(') text :=
      h.beginsOutside (by decide)
    exact bracketed_of_beginsOutside rfl hFront
  have hList : listTerm whole text = none := by
    have hFront : BeginsOutside (fun c => c = '[') text :=
      h.beginsOutside (by decide)
    simp [listTerm, bracketed_of_beginsOutside _ hFront]
  have hMark : ∀ c ∈ ['"', '\'', ':'],
      text.head? ≠ some c := by
    intro c hc hHead
    have hIdle := h c hHead
    simp at hc
    rcases hc with rfl | rfl | rfl <;>
      simp [closers, closingBrackets, separating] at hIdle
  have hLiteral : literal text = none :=
    literal_eq_none (h.beginsOutside (by decide)) hMark
  have hLiteralTerm : literalTerm text = none := by
    simp [literalTerm, hLiteral]
  have hName : identifier text = none :=
    identifier_eq_none (h.beginsOutside (by decide))
  rw [primary, either_of_none hGroup, either_of_none hList,
    either_of_none hLiteralTerm]
  simp [nameOrCall, hName]

/- Where a text is idle, no level reads anything. -/
theorem levelTerm_of_idle
    {whole : Scanner Term}
    {text : List Char}
    (h : Idle text)
    (p : Nat) :
    levelTerm whole p text = none := by
  have hSign : sign text = none := by
    rw [sign.eq_def]
    split
    · simp [Idle, closers, closingBrackets, separating] at h
    · simp [Idle, closers, closingBrackets, separating] at h
    · rfl
  have hSuffixed : suffixedTerm whole text = none := by
    simp [suffixedTerm, primary_of_idle h]
  have hUnary : unaryTerm whole text = none := by
    rw [unaryTerm_of_none hSign, hSuffixed]
  have hFront : BeginsOutside (fun c => c = '.') text :=
    h.beginsOutside (by decide)
  have hRange : strip? ['.', '.'] text = none :=
    strip?_of_beginsOutside (by decide) hFront _
  rw [levelTerm.eq_def]
  split <;>
    simp [rangeTerm, orTerm, andTerm, compareTerm, addTerm,
      mulTerm, powTerm, leftGrouped, ungrouped, rightGrouped,
      hUnary, hSuffixed, hRange]

theorem rangeTerm_of_idle
    {whole : Scanner Term}
    {text : List Char}
    (h : Idle text) :
    rangeTerm whole text = none :=
  levelTerm_of_idle h 0

/- A range without an upper bound ends where its place does. -/
theorem bound_of_follows
    {whole : Scanner Term}
    {rest : List Char}
    (h : Follows 0 rest) :
    bound whole rest = none := by
  have hCloses : Closes (inlineBlanks rest) := by
    cases h with
    | ending => simp [Closes]
    | closing hBlanks hc =>
        rw [inlineBlanks_closing hBlanks hc]
        rintro d ⟨⟩
        exact hc
    | range hLevel => cases hLevel
    | operator hLevel => cases hLevel
    | member hLevel => cases hLevel
    | bracket hLevel => cases hLevel
  exact levelTerm_of_idle hCloses.idle 1

theorem Reads.rangeFrom
    (hFront : Opens 1 s)
    (hBlanks : IsSpacing blanks)
    (hLower : Reads 1 lower s) :
    Reads 0 (.range (some lower) none)
      (s ++ (blanks ++ ['.', '.'])) := by
  intro n hBound rest hRest
  have hRest : Follows 0 rest := hRest
  simp only [List.length_append] at hBound
  have hFollows : Follows 1 (blanks ++ '.' :: '.' :: rest) :=
    .range (by decide) hBlanks
  have hReadLower := hLower.stop (n := n) (by omega) hFollows
  have hRange := rangeTerm_of_points hFront hBlanks hReadLower
  rw [levelResume_of_follows hRest]
  simp only [List.append_assoc, List.cons_append,
    List.nil_append]
  simpa [levelTerm, optionally, bound_of_follows hRest]
    using hRange

end Ranges

end Grammar

end MapStyle
