import MapStyle.Proofs.Concatenation

/-
  Where a text that cannot be read is reported. Reading leaves
  a rear part of the text also where it fails, for it moves on
  by whole characters only. So the place of an error lies
  between two characters; the error names the character after
  it, and counts the lines and columns before it.

  Key definitions include:
    * `Position.ofPos`
    * `ParseError.IsAt`

  Main statements:
    * `Grammar.passes_of_statementsWithin_error`
    * `Position.ofPos_inj`
    * `ParseError.isAt_located`
    * `ParseError.failures_located`
-/

namespace MapStyle

------------------------------------------------------------
-- What reading leaves
------------------------------------------------------------

namespace Scanner

section Suffixes

variable {text rest : List Char}

/- What remains after a string is an end of the text. -/
theorem suffix_of_untilQuote
    {quote : Char}
    {chars : List Char}
    (h : untilQuote quote text = some (chars, rest)) :
    rest <:+ text := by
  fun_induction untilQuote quote text generalizing chars with
  | case1 => cases h
  | case2 => cases h
  | case3 c more _ _ hRead ih =>
      cases h
      exact (ih hRead).trans
        ((List.suffix_cons c more).trans (List.suffix_cons _ _))
  | case4 => cases h
  | case5 more =>
      cases h
      exact List.suffix_cons _ _
  | case6 c more _ _ _ _ _ hRead ih =>
      cases h
      exact (ih hRead).trans (List.suffix_cons c more)
  | case7 => cases h

theorem suffix_of_afterComment?
    (h : afterComment? text = some rest) :
    rest <:+ text := by
  fun_induction afterComment? text with
  | case1 =>
      cases h
      exact List.suffix_rfl
  | case2 =>
      cases h
      exact List.suffix_rfl
  | case3 =>
      cases h
      exact List.suffix_rfl
  | case4 => cases h
  | case5 c more _ _ _ ih =>
      exact (ih h).trans (List.suffix_cons c more)

/- What is passed is a front part of the text. -/
theorem Passes.suffix
    (h : Passes text rest) : rest <:+ text := by
  induction h with
  | none text => exact List.suffix_rfl
  | plain _ _ ih => exact ih.trans (List.suffix_cons _ _)
  | string _ hBody _ ih =>
      exact (ih.trans (suffix_of_untilQuote hBody)).trans
        (List.suffix_cons _ _)
  | comment hBody _ ih =>
      exact (ih.trans (suffix_of_afterComment? hBody)).trans
        (List.suffix_cons _ _)

end Suffixes

end Scanner

namespace Grammar

open Scanner

section Failing

variable {n : Nat} {text rest : List Char}

theorem bind_eq_error_iff
    {ε α β : Type}
    {x : Except ε α}
    {f : α → Except ε β}
    {e : ε} :
    x >>= f = .error e ↔
      x = .error e ∨ ∃ a, x = .ok a ∧ f a = .error e := by
  cases x with
  | error e => simp [bind, Except.bind]
  | ok a => simp [bind, Except.bind]

/- A block fails only inside its braces. -/
theorem block_eq_error_iff
    {inner : Statements} :
    block inner text = .error rest ↔
      ∃ opened,
        strip? ['\x7b'] (inlineBlanks text) = some opened ∧
          inner opened = .error rest := by
  rw [block]
  cases strip? ['\x7b'] (inlineBlanks text) with
  | none => simp
  | some opened =>
      simp only [bind_eq_error_iff, Option.some.injEq,
        exists_eq_left', or_iff_left_iff_imp, Prod.exists]
      rintro ⟨body, closed, -, hClose⟩
      split at hClose
      · cases hClose
      · cases hClose

/-
  Statements fail at what begins none, at what stands after
  one, or where a block or a later statement fails.
-/
theorem statementsWithin_succ_eq_error_iff :
    statementsWithin (n + 1) text = .error rest ↔
      (atBlockEnd (separators text) = false ∧
        identifier (separators text) = none ∧
        rest = separators text) ∨
      ∃ name after args middle,
        identifier (separators text) = some (name, after) ∧
          statementArguments (termWithin n) after =
            (args, middle) ∧
          (block (statementsWithin n) middle = .error rest ∨
            ∃ body ending,
              block (statementsWithin n) middle =
                  .ok (body, ending) ∧
                ((atStatementEnd (inlineBlanks ending) = false ∧
                    rest = inlineBlanks ending) ∨
                  (atStatementEnd (inlineBlanks ending) = true ∧
                    statementsWithin n (inlineBlanks ending) =
                      .error rest))) := by
  rw [statementsWithin]
  constructor
  · intro h
    dsimp only at h
    split at h
    · cases h
    · rename_i hStart
      rw [Bool.not_eq_true] at hStart
      split at h
      · rename_i hName
        cases h
        exact .inl ⟨hStart, hName, rfl⟩
      · rename_i name after hName
        refine .inr ⟨name, after, _, _, hName, rfl, ?_⟩
        rcases bind_eq_error_iff.mp h with
          hBlock | ⟨⟨body, ending⟩, hBlock, h⟩
        · exact .inl hBlock
        · refine .inr ⟨body, ending, hBlock, ?_⟩
          dsimp only at h
          split at h
          · rename_i hEnd
            rcases bind_eq_error_iff.mp h with
              hMore | ⟨_, _, h⟩
            · exact .inr ⟨hEnd, hMore⟩
            · cases h
          · rename_i hEnd
            rw [Bool.not_eq_true] at hEnd
            cases h
            exact .inl ⟨hEnd, rfl⟩
  · rintro (⟨hStart, hName, rfl⟩ |
      ⟨name, after, args, middle, hName, hArgs, h⟩)
    · simp only [hStart, hName]
      rfl
    · have hStart := atBlockEnd_of_identifier hName
      simp only [hStart, hName, hArgs]
      refine bind_eq_error_iff.mpr ?_
      rcases h with hBlock |
        ⟨body, ending, hBlock, ⟨hEnd, rfl⟩ | ⟨hEnd, hMore⟩⟩
      · exact .inl hBlock
      · refine .inr ⟨_, hBlock, ?_⟩
        rw [hEnd]
        rfl
      · refine .inr ⟨_, hBlock, ?_⟩
        rw [if_pos hEnd]
        exact bind_eq_error_iff.mpr (.inl hMore)

/-
  A block is passed as a whole; what remains of the text is
  behind it.
-/
theorem passes_of_block
    {body : Option (List Statement)}
    (h : block (statementsWithin n) text = .ok (body, rest)) :
    Passes text rest := by
  rcases block_eq_ok_iff.mp h with
    ⟨-, -, rfl⟩ |
    ⟨opened, inside, closed, hOpen, hInside,
      ⟨-, -, rfl⟩ | ⟨hClose, -⟩⟩
  · exact .none _
  · exact .none _
  · exact ((passes_inlineBlanks text).trans
      (passes_of_strip? (by decide) hOpen)).trans
        ((accepts_iff.mpr hInside).passes.trans
          (passes_of_strip? (by decide) hClose))

/-
  Induction on the bound: whatever fails, a statement, a block
  or what comes after them, was reached by passing characters.
-/
theorem passes_of_statementsWithin_error
    (h : statementsWithin n text = .error rest) :
    Passes text rest := by
  induction n generalizing text rest with
  | zero =>
      cases h
      exact .none text
  | succ n ih =>
      rw [statementsWithin_succ_eq_error_iff] at h
      rcases h with
        ⟨-, -, rfl⟩ |
        ⟨name, after, args, middle, hName, hArgs,
          hBlock |
          ⟨body, ending, hBlock, ⟨-, rfl⟩ | ⟨-, hMore⟩⟩⟩
      · exact passes_separators text
      · rcases block_eq_error_iff.mp hBlock with
          ⟨opened, hOpen, hInside⟩
        exact (passes_front hName hArgs).trans
          ((passes_inlineBlanks middle).trans
            ((passes_of_strip? (by decide) hOpen).trans
              (ih hInside)))
      · exact (passes_front hName hArgs).trans
          ((passes_of_block hBlock).trans
            (passes_inlineBlanks ending))
      · exact (passes_front hName hArgs).trans
          ((passes_of_block hBlock).trans
            ((passes_inlineBlanks ending).trans (ih hMore)))

theorem passes_of_termWithin
    {term : Term}
    (h : termWithin n text = some (term, rest)) :
    Passes text rest :=
  (extends_termWithin breaks_nil (Nat.le_refl n)).passes h

end Failing

end Grammar

/- A term fails at a place that its reader comes to. -/
theorem Term.passes_failure (text : List Char) :
    Scanner.Passes text (failure text) := by
  rw [failure]
  cases hMark : Scanner.strip? ['.', '.'] text with
  | none => exact .none text
  | some rest =>
      exact (Scanner.passes_of_strip? (by decide) hMark).trans
        (Scanner.passes_inlineBlanks rest)

------------------------------------------------------------
-- Lines and columns
------------------------------------------------------------

namespace Position

section Counting

variable {before before' text : List Char}

/- The offset counts bytes, not characters. -/
theorem offset_foldl_step
    (gap : List Char)
    (p : Position) :
    (gap.foldl step p).offset =
      p.offset + (String.ofList gap).utf8ByteSize := by
  induction gap generalizing p with
  | nil => simp
  | cons c gap ih =>
      have hStep : (step p c).offset = p.offset + c.utf8Size := by
        rw [step]
        split
        · rfl
        · rfl
      rw [List.foldl_cons, ih, hStep]
      simp only [String.utf8ByteSize_ofList, String.utf8Len_cons]
      omega

/-
  A line is counted for each line break that has been
  passed.
-/
theorem line_foldl_step
    (gap : List Char)
    (p : Position) :
    (gap.foldl step p).line = p.line + gap.count '\n' := by
  induction gap generalizing p with
  | nil => rfl
  | cons c gap ih =>
      rw [List.foldl_cons, ih, step, List.count_cons]
      by_cases hc : c = '\n'
      · simp only [hc, if_true, beq_self_eq_true]
        omega
      · simp [hc]

theorem column_foldl_step
    {gap : List Char}
    (hGap : '\n' ∉ gap)
    (p : Position) :
    (gap.foldl step p).column = p.column + gap.length := by
  induction gap generalizing p with
  | nil => rfl
  | cons c gap ih =>
      rw [List.mem_cons, not_or] at hGap
      rw [List.foldl_cons, ih hGap.2, step,
        if_neg (Ne.symm hGap.1), List.length_cons]
      dsimp only
      omega

/- The characters of the line that a text ends in. -/
theorem column_after (text : List Char) :
    (after text).column =
      (text.rtakeWhile (· ≠ '\n')).length + 1 := by
  induction text using List.reverseRecOn with
  | nil => rfl
  | append_singleton text c ih =>
      rw [after] at ih
      rw [after, List.foldl_append, List.foldl_cons,
        List.foldl_nil, step, List.rtakeWhile_concat]
      by_cases hc : c = '\n'
      · simp [hc]
      · simp [hc, ih]

theorem after_append (before gap : List Char) :
    after (before ++ gap) = gap.foldl step (after before) :=
  List.foldl_append

/-
  Two positions of one line and column are the same: what is
  between them is empty.
-/
theorem eq_of_after_append
    {gap : List Char}
    (hLine : (after before).line = (after (before ++ gap)).line)
    (hColumn :
      (after before).column = (after (before ++ gap)).column) :
    gap = [] := by
  rw [after_append] at hLine hColumn
  have hLines := line_foldl_step gap (after before)
  -- In a gap without a new line every character is a column.
  have hGap : '\n' ∉ gap :=
    List.count_eq_zero.mp (by omega)
  have hColumns := column_foldl_step hGap (after before)
  exact List.length_eq_zero_iff.mp (by omega)

/-
  Two front parts of a text are told apart by the line and
  the column after them.
-/
theorem prefix_eq_of_after
    (h : before <+: text)
    (h' : before' <+: text)
    (hLine : (after before).line = (after before').line)
    (hColumn : (after before).column = (after before').column) :
    before = before' := by
  rcases List.prefix_or_prefix_of_prefix h h' with
    ⟨gap, rfl⟩ | ⟨gap, rfl⟩
  · rw [eq_of_after_append hLine hColumn, List.append_nil]
  · rw [eq_of_after_append hLine.symm hColumn.symm,
      List.append_nil]

end Counting

/- The characters of a text before a place in it. -/
def before
    {text : String}
    (p : text.Pos) : List Char :=
  (text.sliceTo p).copy.toList

/- The position of a place in a text. -/
def ofPos
    {text : String}
    (p : text.Pos) : Position :=
  after (before p)

theorem offset_ofPos
    {text : String}
    (p : text.Pos) : (ofPos p).offset = p.offset.byteIdx := by
  rw [ofPos, after, offset_foldl_step, before,
    String.ofList_toList, p.splits.offset_eq_rawEndPos]
  simp [start]

/-
  Different places of one text never share both their line
  and their column.
-/
theorem ofPos_inj
    {text : String}
    {p q : text.Pos}
    (hLine : (ofPos p).line = (ofPos q).line)
    (hColumn : (ofPos p).column = (ofPos q).column) : p = q := by
  have hPrefix (r : text.Pos) : before r <+: text.toList := by
    have hText := congrArg String.toList r.splits.eq_append
    rw [String.toList_append] at hText
    exact ⟨_, hText.symm⟩
  have hBefore :=
    prefix_eq_of_after (hPrefix p) (hPrefix q) hLine hColumn
  apply String.Pos.ext
  apply String.Pos.Raw.ext
  rw [← offset_ofPos, ← offset_ofPos, ofPos, ofPos, hBefore]

end Position

------------------------------------------------------------
-- Errors
------------------------------------------------------------

namespace Unexpected

section Wording

variable {remaining : List Char}

/- Different things that stand there are worded differently. -/
theorem message_inj (found found' : Unexpected) :
    found.message = found'.message ↔ found = found' := by
  refine ⟨fun h => ?_, congrArg message⟩
  have hText := congrArg String.toList h
  cases found with
  | endOfInput =>
      cases found' with
      | endOfInput => rfl
      | endOfLine => simp [message] at hText
      | character c => simp [message] at hText
  | endOfLine =>
      cases found' with
      | endOfInput => simp [message] at hText
      | endOfLine => rfl
      | character c => simp [message] at hText
  | character c =>
      cases found' with
      | endOfInput => simp [message] at hText
      | endOfLine => simp [message] at hText
      | character d =>
          simp only [message, String.toList_append,
            String.toList_ofList, List.append_cancel_left_eq,
            List.append_cancel_right_eq, List.cons.injEq,
            and_true] at hText
          rw [hText]

/- The message names what stands at the position. -/
theorem front_eq_endOfInput_iff :
    front remaining = .endOfInput ↔ remaining.head? = none := by
  fun_cases front remaining with
  | case1 => simp
  | case2 => simp
  | case3 => simp

theorem front_eq_endOfLine_iff :
    front remaining = .endOfLine ↔
      remaining.head? = some '\n' ∨
        remaining.head? = some '\r' := by
  fun_cases front remaining with
  | case1 => simp
  | case2 c rest hc => simpa using hc
  | case3 c rest hc => simpa using hc

theorem front_eq_character_iff (c : Char) :
    front remaining = .character c ↔
      remaining.head? = some c ∧ c ≠ '\n' ∧ c ≠ '\r' := by
  fun_cases front remaining with
  | case1 => simp
  | case2 d rest hd =>
      simp only [reduceCtorEq, List.head?_cons, Option.some.injEq,
        false_iff]
      rintro ⟨rfl, hLine, hReturn⟩
      exact hd.elim hLine hReturn
  | case3 d rest hd =>
      rw [not_or] at hd
      simp only [character.injEq, List.head?_cons,
        Option.some.injEq]
      constructor
      · rintro rfl
        exact ⟨rfl, hd⟩
      · exact fun h => h.1

end Wording

end Unexpected

namespace ParseError

/-
  The error is reported at a place between two characters of
  a text or at one of its ends: it counts the bytes before the
  place, the lines, and the characters in the last of them,
  and its wording names what stands after the place.
-/
structure IsAt
    {text : String}
    (e : ParseError)
    (p : text.Pos) : Prop where
  position : e.position = Position.ofPos p
  offset : e.position.offset = p.offset.byteIdx
  offset_le : e.position.offset ≤ text.utf8ByteSize
  line :
    e.position.line = (Position.before p).count '\n' + 1
  column :
    e.position.column =
      ((Position.before p).rtakeWhile (· ≠ '\n')).length + 1
  endOfInput :
    e.found.message = "unexpected end of input" ↔
      e.position.offset = text.utf8ByteSize
  endOfLine :
    e.found.message = "unexpected end of line" ↔
      p.get? = some '\n' ∨ p.get? = some '\r'
  character (c : Char) :
    e.found.message = "unexpected `" ++ String.ofList [c] ++ "`" ↔
      p.get? = some c ∧ c ≠ '\n' ∧ c ≠ '\r'

section Located

variable {text : String} {p : text.Pos}

theorem get?_eq_head?
    {before after : String}
    (h : p.Splits before after) :
    p.get? = after.toList.head? := by
  by_cases hEnd : p = text.endPos
  · rw [String.Pos.get?_eq_none_iff.mpr hEnd,
      h.eq_endPos_iff.mp hEnd]
    rfl
  · rcases h.exists_eq_singleton_append hEnd with ⟨rest, rfl⟩
    rw [String.Pos.get?_eq_some_get hEnd]
    simp

/-
  A position splits the text into what has been passed and
  what is left.
-/
theorem isAt_of_splits
    {e : ParseError}
    {before : String}
    {remaining : List Char}
    (hSplits : p.Splits before (String.ofList remaining))
    (hPosition : e.position = Position.ofPos p)
    (hFound : e.found = Unexpected.front remaining) :
    e.IsAt p := by
  have hOffset : e.position.offset = p.offset.byteIdx := by
    rw [hPosition, Position.offset_ofPos]
  have hNext : p.get? = remaining.head? := by
    rw [get?_eq_head? hSplits, String.toList_ofList]
  have hEnd :
      p.get? = none ↔ e.position.offset = text.utf8ByteSize := by
    rw [String.Pos.get?_eq_none_iff, hOffset,
      String.Pos.ext_iff, String.Pos.Raw.ext_iff]
    rfl
  constructor
  · exact hPosition
  · exact hOffset
  · rw [hOffset]
    exact p.isValid.le_utf8ByteSize
  · rw [hPosition, Position.ofPos, Position.after,
      Position.line_foldl_step]
    exact Nat.add_comm _ _
  · rw [hPosition, Position.ofPos, Position.column_after]
  · rw [← hEnd, hNext, hFound,
      ← Unexpected.front_eq_endOfInput_iff]
    exact Unexpected.message_inj _ .endOfInput
  · rw [hNext, hFound, ← Unexpected.front_eq_endOfLine_iff]
    exact Unexpected.message_inj _ .endOfLine
  · intro c
    rw [hNext, hFound, ← Unexpected.front_eq_character_iff]
    exact Unexpected.message_inj _ (.character c)

/-
  An error at a rear part of a text is reported at the place
  where that part begins.
-/
theorem isAt_located
    {remaining : List Char}
    (h : remaining <:+ text.toList) :
    ∃ p : text.Pos, (located text.toList remaining).IsAt p := by
  rcases h with ⟨before, hText⟩
  have hAppend :
      text = String.ofList before ++ String.ofList remaining := by
    rw [← String.ofList_append, hText, String.ofList_toList]
  have hValid : (String.ofList before).rawEndPos.IsValid text :=
    String.Pos.Raw.isValid_iff_exists_append.mpr
      ⟨_, _, hAppend, rfl⟩
  have hSplits :
      (text.pos _ hValid).Splits (String.ofList before)
        (String.ofList remaining) :=
    ⟨hAppend, rfl⟩
  refine ⟨text.pos _ hValid, isAt_of_splits hSplits ?_ rfl⟩
  rw [Position.ofPos, Position.before, hSplits.copy_sliceTo_eq,
    String.toList_ofList]
  simp [located, ← hText]

end Located

end ParseError

theorem Program.isAt_of_read
    {source : String}
    {e : ParseError}
    (h : Program.read source = .error e) :
    ∃ p : source.Pos, e.IsAt p := by
  rw [Program.read] at h
  split at h
  · cases h
  · rename_i program remaining hNot hRead
    cases h
    have hPasses := (Grammar.accepts_iff.mpr hRead).passes
    exact ParseError.isAt_located hPasses.suffix
  · rename_i remaining hRead
    cases h
    have hPasses :=
      Grammar.passes_of_statementsWithin_error hRead
    exact ParseError.isAt_located hPasses.suffix

theorem Term.isAt_of_read
    {source : String}
    {e : ParseError}
    (h : Term.read source = .error e) :
    ∃ p : (String.ofList (Text.trim source.toList)).Pos,
      e.IsAt p := by
  have hLocated
      {remaining : List Char}
      (hPasses :
        Scanner.Passes (Text.trim source.toList) remaining) :
      ∃ p : (String.ofList (Text.trim source.toList)).Pos,
        (ParseError.located (Text.trim source.toList)
          remaining).IsAt p := by
    have hSuffix := hPasses.suffix
    rw [← String.toList_ofList (l := Text.trim source.toList)]
      at hSuffix
    have hAt := ParseError.isAt_located hSuffix
    rwa [String.toList_ofList] at hAt
  rw [Term.read] at h
  split at h
  · rename_i term remaining hRead
    split at h
    · cases h
    · cases h
      exact hLocated (Grammar.passes_of_termWithin hRead)
  · cases h
    exact hLocated (Term.passes_failure _)

/-
  Every failure of reading a program, and of reading a term
  without the blanks around it, is reported at a place of the
  text that was read; and a place of a text is told from all
  others by its line and column.
-/
theorem ParseError.failures_located :
    (∀ source e,
      Program.read source = .error e →
        ∃ p : source.Pos, e.IsAt p) ∧
    (∀ source e,
      Term.read source = .error e →
        ∃ p : (String.ofList (Text.trim source.toList)).Pos,
          e.IsAt p) ∧
    (∀ (text : String) (p q : text.Pos),
      p ≠ q →
        ((Position.ofPos p).line, (Position.ofPos p).column) ≠
          ((Position.ofPos q).line,
            (Position.ofPos q).column)) := by
  refine ⟨fun _ _ => Program.isAt_of_read,
    fun _ _ => Term.isAt_of_read, ?_⟩
  intro text p q hNe hSame
  rcases Prod.mk.inj hSame with ⟨hLine, hColumn⟩
  exact hNe (Position.ofPos_inj hLine hColumn)

/- What stands on the second line ends no statement. -/
def strayParenthesis : String :=
  "color \"é\" # ü\nwidth 6 )\n"

/- The blanks around it are no part of the text that is read. -/
def danglingSum : String :=
  "\t\"é\" + )\n"

theorem ParseError.failures_located_strayParenthesis :
    (∃ p : strayParenthesis.Pos,
      ParseError.IsAt ⟨.character ')', 24, 2, 9⟩ p) ∧
    (∃ p : (String.ofList (Text.trim danglingSum.toList)).Pos,
      ParseError.IsAt ⟨.character ' ', 4, 1, 4⟩ p) ∧
    ((Position.ofPos strayParenthesis.startPos).line,
        (Position.ofPos strayParenthesis.startPos).column) ≠
      ((Position.ofPos strayParenthesis.endPos).line,
        (Position.ofPos strayParenthesis.endPos).column) :=
  ⟨failures_located.1 strayParenthesis _ (by cbv),
    failures_located.2.1 danglingSum _ (by cbv),
    failures_located.2.2 strayParenthesis _ _ (by decide)⟩

end MapStyle
