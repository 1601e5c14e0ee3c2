import MapStyle.Proofs.TermLevels

/-
  Texts that something else follows. A text is whole if every
  string and comment that begins in it ends in it; what
  follows a whole text then changes nothing of how it is
  scanned, if it begins on a new line and with what ends a
  statement.

  Key definitions include:
    * `Scanner.Passes`
    * `Scanner.Whole`
    * `Scanner.Breaks`

  Main statements:
    * `Scanner.Passes.whole`
    * `Scanner.inlineBlanks_breaks`
    * `Scanner.skipWith_breaks`
-/

namespace MapStyle

namespace Scanner

------------------------------------------------------------
-- Passing strings and comments
------------------------------------------------------------

/- The characters with which a string or comment begins. -/
def enclosing : List Char :=
  ['"', '\'', '#']

/-
  The second text is what remains of the first after some of
  its characters, where no string or comment is left half
  read.
-/
inductive Passes : List Char → List Char → Prop
  | none (text : List Char) : Passes text text
  | plain
      {c : Char}
      {rest last : List Char}
      (hPlain : c ∉ enclosing)
      (h : Passes rest last) : Passes (c :: rest) last
  | string
      {quote : Char}
      {chars body after last : List Char}
      (hQuote : quote = '"' ∨ quote = '\'')
      (hBody : untilQuote quote body = some (chars, after))
      (h : Passes after last) : Passes (quote :: body) last
  | comment
      {body after last : List Char}
      (hBody : afterComment? body = some after)
      (h : Passes after last) : Passes ('#' :: body) last

/- Every string and comment that begins in the text ends in it. -/
def Whole (text : List Char) : Prop :=
  Passes text []

section Passing

variable {text rest last : List Char}

/- What is passed in two parts is passed in one. -/
theorem Passes.trans
    (hFirst : Passes text rest)
    (hSecond : Passes rest last) : Passes text last := by
  induction hFirst with
  | none => exact hSecond
  | plain hPlain _ ih => exact .plain hPlain (ih hSecond)
  | string hQuote hBody _ ih =>
      exact .string hQuote hBody (ih hSecond)
  | comment hBody _ ih => exact .comment hBody (ih hSecond)

theorem Passes.length_le
    (h : Passes text rest) : rest.length ≤ text.length := by
  induction h with
  | none => exact Nat.le_refl _
  | plain _ _ ih => exact Nat.le_succ_of_le ih
  | string _ hBody _ ih =>
      have hAfter := (yields_untilQuote.of_some hBody).2
      exact Nat.le_succ_of_le (Nat.le_trans ih hAfter)
  | comment hBody _ ih =>
      have hAfter := length_afterComment? hBody
      exact Nat.le_succ_of_le (Nat.le_trans ih hAfter)

/- A character that encloses nothing may be taken off. -/
theorem Whole.of_plain
    {c : Char}
    (hPlain : c ∉ enclosing)
    (h : Whole (c :: rest)) : Whole rest := by
  cases h with
  | plain _ h => exact h
  | string hQuote =>
      rcases hQuote with rfl | rfl
      · exact absurd (by decide) hPlain
      · exact absurd (by decide) hPlain
  | comment => exact absurd (by decide) hPlain

/- A quote in a whole text has its counterpart. -/
theorem Whole.of_quote
    {quote : Char}
    (hQuote : quote = '"' ∨ quote = '\'')
    (h : Whole (quote :: rest)) :
    ∃ chars after,
      untilQuote quote rest = some (chars, after) ∧
        Whole after := by
  cases h with
  | plain hPlain =>
      rcases hQuote with rfl | rfl
      · exact absurd (by decide) hPlain
      · exact absurd (by decide) hPlain
  | string _ hBody h => exact ⟨_, _, hBody, h⟩
  | comment =>
      rcases hQuote with hQuote | hQuote
      · exact absurd hQuote (by decide)
      · exact absurd hQuote (by decide)

/- A comment in a whole text has its end. -/
theorem Whole.of_comment
    (h : Whole ('#' :: rest)) :
    ∃ after, afterComment? rest = some after ∧ Whole after := by
  cases h with
  | plain hPlain => exact absurd (by decide) hPlain
  | string hQuote =>
      rcases hQuote with hQuote | hQuote
      · exact absurd hQuote (by decide)
      · exact absurd hQuote (by decide)
  | comment hBody h => exact ⟨_, hBody, h⟩

/-
  Strings and comments are found in one way only, so what
  remains of a whole text is whole.
-/
theorem Passes.whole
    (h : Passes text rest)
    (hWhole : Whole text) : Whole rest := by
  induction h with
  | none => exact hWhole
  | plain hPlain _ ih => exact ih (hWhole.of_plain hPlain)
  | string hQuote hBody _ ih =>
      rcases hWhole.of_quote hQuote with
        ⟨chars, after, hFound, hWhole⟩
      cases hFound.symm.trans hBody
      exact ih hWhole
  | comment hBody _ ih =>
      rcases hWhole.of_comment with ⟨after, hFound, hWhole⟩
      cases hFound.symm.trans hBody
      exact ih hWhole

/- A mark is passed character by character. -/
theorem passes_append
    {mark : List Char}
    (hMark : ∀ c ∈ mark, c ∉ enclosing)
    (rest : List Char) : Passes (mark ++ rest) rest := by
  induction mark with
  | nil => exact .none rest
  | cons c mark ih =>
      have hMore := ih (fun d hd => hMark d (by simp [hd]))
      exact .plain (hMark c (by simp)) hMore

theorem not_enclosing
    {accepted : Char → Bool}
    (hOutside : enclosing.all (fun c => !accepted c) = true)
    (c : Char)
    (h : accepted c = true) : c ∉ enclosing := by
  intro hc
  have hNot := List.all_eq_true.mp hOutside c hc
  simp [h] at hNot

/-
  So is what a class of characters matches, if no character
  of the class encloses anything.
-/
theorem passes_dropWhile
    {accepted : Char → Bool}
    (h : ∀ c, accepted c = true → c ∉ enclosing)
    (text : List Char) :
    Passes text (text.dropWhile accepted) := by
  have hFront : ∀ c ∈ text.takeWhile accepted, c ∉ enclosing :=
    fun c hc => h c (List.all_eq_true.mp List.all_takeWhile c hc)
  have hPasses :=
    passes_append hFront (text.dropWhile accepted)
  rwa [List.takeWhile_append_dropWhile] at hPasses

/- A comment is passed as a whole. -/
theorem passes_comment (text : List Char) :
    Passes text (comment text) := by
  fun_cases comment text with
  | case1 rest after hAfter =>
      exact .comment hAfter (.none after)
  | case2 => exact .none _
  | case3 => exact .none _

theorem passes_inlineBlanks (text : List Char) :
    Passes text (inlineBlanks text) :=
  (passes_dropWhile (not_enclosing (by decide)) text).trans
    (passes_comment _)

/-
  Blanks and comments are passed as they come, by the
  recursion of the skipper.
-/
theorem passes_skipWith
    {skipped : Char → Bool}
    (hSkipped : ∀ c, skipped c = true → c ∉ enclosing)
    (text : List Char) : Passes text (skipWith skipped text) := by
  fun_induction skipWith skipped text with
  | case1 => exact .none []
  | case2 c rest hc ih => exact .plain (hSkipped c hc) ih
  | case3 rest after hAfter _ ih => exact .comment hAfter ih
  | case4 => exact .none _
  | case5 => exact .none _

theorem passes_blanks (text : List Char) :
    Passes text (blanks text) :=
  passes_skipWith (not_enclosing (by decide)) text

theorem passes_separators (text : List Char) :
    Passes text (separators text) :=
  passes_skipWith (not_enclosing (by decide)) text

end Passing

------------------------------------------------------------
-- What may follow a text
------------------------------------------------------------

/- The text is empty or begins with what separates statements. -/
def Stops (text : List Char) : Prop :=
  ∀ c ∈ text.head?, c ∈ Grammar.separating

theorem stops_nil : Stops [] := by
  rintro c ⟨⟩

theorem stops_cons
    {c : Char}
    (hc : c ∈ Grammar.separating)
    (rest : List Char) : Stops (c :: rest) := by
  rintro d ⟨⟩
  exact hc

/- No term goes on where a text stops. -/
theorem Stops.idle
    {text : List Char}
    (h : Stops text) : Grammar.Idle text :=
  fun c hc =>
    List.mem_append_right closers (h c hc)

/-
  What separates statements is no blank, so nothing is
  skipped in front of it.
-/
theorem blanks_of_stops
    {text : List Char}
    (h : Stops text) : blanks text = text := by
  cases text with
  | nil => rw [blanks, skipWith]
  | cons c rest =>
      have hc : c ∈ Grammar.separating := h c rfl
      simp [Grammar.separating] at hc
      rcases hc with rfl | rfl | rfl <;>
        exact blanks_cons (by decide) (by decide)

/-
  The text is empty, or begins on a new line with what
  separates statements.
-/
structure Breaks (tail : List Char) : Prop where
  line : ∀ c ∈ tail.head?, c = '\n'
  stops : Stops (blanks tail)

theorem breaks_nil : Breaks [] := by
  refine ⟨?_, ?_⟩
  · rintro c ⟨⟩
  · rw [blanks, skipWith]
    exact stops_nil

/- A separator on the next line. -/
theorem breaks_cons
    {c : Char}
    (hc : c ∈ Grammar.separating)
    (rest : List Char) : Breaks ('\n' :: c :: rest) := by
  have hBlanks : blanks ('\n' :: c :: rest) = c :: rest := by
    have hSkip :
        blanks ('\n' :: c :: rest) = blanks (c :: rest) := by
      simp [blanks, skipWith, isLineBlank]
    rw [hSkip]
    exact blanks_of_stops (stops_cons hc rest)
  refine ⟨?_, ?_⟩
  · rintro d ⟨⟩
    rfl
  · rw [hBlanks]
    exact stops_cons hc rest

section Followed

variable {tail : List Char}

/- The end of the line ends a run of characters. -/
theorem Breaks.beginsOutside
    {accepted : Char → Bool}
    (hTail : Breaks tail)
    (hLine : accepted '\n' = false) :
    BeginsOutside accepted tail := by
  intro c hc
  rw [hTail.line c hc, hLine]

/-
  A mark within the line is found with the tail exactly if
  it is found without.
-/
theorem strip?_breaks
    {mark : List Char}
    (hTail : Breaks tail)
    (hMark : '\n' ∉ mark)
    (text : List Char) :
    strip? mark (text ++ tail) =
      (strip? mark text).map (· ++ tail) := by
  induction mark generalizing text with
  | nil => rfl
  | cons m mark ih =>
      simp only [List.mem_cons, not_or] at hMark
      cases text with
      | nil =>
          have hFront : BeginsOutside (fun c => c = m) tail :=
            hTail.beginsOutside (by simpa using hMark.1)
          simpa using strip?_of_beginsOutside (by simp) hFront mark
      | cons c text =>
          by_cases hc : m = c
          · simp [hc, ih hMark.2]
          · simp [hc]

/-
  A run of characters ends where the tail begins, if not
  before.
-/
theorem dropWhile_breaks
    {accepted : Char → Bool}
    (hTail : BeginsOutside accepted tail)
    (text : List Char) :
    (text ++ tail).dropWhile accepted =
      text.dropWhile accepted ++ tail := by
  induction text with
  | nil =>
      have hNone : ∀ c ∈ ([] : List Char), accepted c = true := by
        simp
      exact dropWhile_append hNone hTail
  | cons c text ih =>
      cases hc : accepted c with
      | true => simp [hc, ih]
      | false => simp [hc]

theorem takeWhile_breaks
    {accepted : Char → Bool}
    (hTail : BeginsOutside accepted tail)
    (text : List Char) :
    (text ++ tail).takeWhile accepted =
      text.takeWhile accepted := by
  induction text with
  | nil =>
      have hNone : ∀ c ∈ ([] : List Char), accepted c = true := by
        simp
      exact takeWhile_append hNone hTail
  | cons c text ih =>
      cases hc : accepted c with
      | true => simp [hc, ih]
      | false => simp [hc]

/-
  Without an escape, the next character is the quote or part
  of the string.
-/
theorem untilQuote_plain
    {quote c : Char}
    (hPlain : c ≠ '\\')
    (rest : List Char) :
    untilQuote quote (c :: rest) =
      if c = quote then
        some ([], rest)
      else
        (untilQuote quote rest).map fun (chars, after) =>
          (c :: chars, after) := by
  rw [untilQuote]
  · split
    · rfl
    · cases untilQuote quote rest <;> rfl
  · exact fun h _ => hPlain h
  · exact fun _ _ h _ => hPlain h

/- A character before others that begins no escape. -/
theorem ne_backslash
    {c : Char}
    {rest : List Char}
    (hLast : c = '\\' → rest = [] → False)
    (hEscape : ∀ d more, c = '\\' → rest = d :: more → False) :
    c ≠ '\\' := by
  intro hc
  cases rest with
  | nil => exact hLast hc rfl
  | cons d more => exact hEscape d more hc rfl

/- Nothing after the closing quote is looked at. -/
theorem untilQuote_followed
    {quote : Char}
    {text chars after : List Char}
    (h : untilQuote quote text = some (chars, after))
    (tail : List Char) :
    untilQuote quote (text ++ tail) =
      some (chars, after ++ tail) := by
  fun_induction untilQuote quote text generalizing chars with
  | case1 => cases h
  | case2 => cases h
  | case3 c more chars' after' hRead ih =>
      cases h
      simp [untilQuote, ih hRead]
  | case4 => cases h
  | case5 more hLast hEscape =>
      cases h
      simp [untilQuote_plain (ne_backslash hLast hEscape)]
  | case6 c more hLast hEscape hQuote chars' after' hRead ih =>
      cases h
      have hPlain := ne_backslash hLast hEscape
      simp [untilQuote_plain hPlain, hQuote, ih hRead]
  | case7 => cases h

/- The end of a text ends a comment as the end of a line does. -/
theorem afterComment?_breaks
    {text after : List Char}
    (hTail : Breaks tail)
    (h : afterComment? text = some after) :
    afterComment? (text ++ tail) = some (after ++ tail) := by
  fun_induction afterComment? text with
  | case1 =>
      cases h
      cases tail with
      | nil => rfl
      | cons c tail =>
          cases hTail.line c rfl
          rfl
  | case2 =>
      cases h
      rfl
  | case3 =>
      cases h
      rfl
  | case4 => cases h
  | case5 c rest hLine hReturn hOther ih =>
      rw [List.cons_append, afterComment?]
      · exact ih h
      · exact hLine
      · exact fun _ hc _ => hOther hc
      · exact hOther

theorem comment_of_beginsOutside
    {text : List Char}
    (h : BeginsOutside (fun c => c = '#') text) :
    comment text = text := by
  fun_cases comment text with
  | case1 => simp at h
  | case2 => rfl
  | case3 => rfl

/- A comment ends with its line, and so in front of the tail. -/
theorem comment_breaks
    {text : List Char}
    (hTail : Breaks tail)
    (hWhole : Whole text) :
    comment (text ++ tail) = comment text ++ tail := by
  fun_cases comment text with
  | case1 rest after hAfter =>
      simp [comment, afterComment?_breaks hTail hAfter]
  | case2 rest hAfter =>
      -- What is no comment here could be one in a longer text.
      rcases hWhole.of_comment with ⟨after, hFound, -⟩
      rw [hAfter] at hFound
      cases hFound
  | case3 text hOther =>
      cases text with
      | nil =>
          have hFront : BeginsOutside (fun c => c = '#') tail :=
            hTail.beginsOutside (by decide)
          exact comment_of_beginsOutside hFront
      | cons c rest =>
          refine comment_of_beginsOutside ?_
          rw [List.cons_append, beginsOutside_cons]
          simpa using fun hc => hOther rest (by rw [hc])

theorem inlineBlanks_breaks
    {text : List Char}
    (hTail : Breaks tail)
    (hWhole : Whole text) :
    inlineBlanks (text ++ tail) = inlineBlanks text ++ tail := by
  have hPasses : Passes text (text.dropWhile isInlineBlank) :=
    passes_dropWhile (not_enclosing (by decide)) text
  rw [inlineBlanks,
    dropWhile_breaks (hTail.beginsOutside (by decide)),
    comment_breaks hTail (hPasses.whole hWhole), inlineBlanks]

/- A comment that is skipped counts for nothing. -/
theorem skipWith_comment
    {skipped : Char → Bool}
    {rest after : List Char}
    (hSkipped : ¬ skipped '#' = true)
    (hAfter : afterComment? rest = some after) :
    skipWith skipped ('#' :: rest) = skipWith skipped after := by
  rw [skipWith, if_neg hSkipped, if_pos rfl]
  split
  · rename_i found hFound
    cases hFound.symm.trans hAfter
    rfl
  · rename_i hFound
    cases hFound.symm.trans hAfter

/-
  A skipper that gets to the end of the text goes on with what
  follows.
-/
theorem skipWith_breaks
    {skipped : Char → Bool}
    {text : List Char}
    (hSkipped : ∀ c, skipped c = true → c ∉ enclosing)
    (hTail : Breaks tail)
    (hWhole : Whole text) :
    skipWith skipped (text ++ tail) =
      if skipWith skipped text = [] then
        skipWith skipped tail
      else
        skipWith skipped text ++ tail := by
  fun_induction skipWith skipped text with
  | case1 => simp
  | case2 c rest hc ih =>
      rw [List.cons_append, skipWith, if_pos hc]
      exact ih (hWhole.of_plain (hSkipped c hc))
  | case3 rest after hAfter hc ih =>
      rcases hWhole.of_comment with ⟨after', hFound, hWhole⟩
      cases hFound.symm.trans hAfter
      rw [List.cons_append,
        skipWith_comment hc (afterComment?_breaks hTail hAfter)]
      exact ih hWhole
  | case4 rest hAfter hc =>
      rcases hWhole.of_comment with ⟨after, hFound, -⟩
      rw [hAfter] at hFound
      cases hFound
  | case5 c rest hc hComment =>
      rw [List.cons_append, skipWith]
      simp [hc, hComment]

/-
  Blanks are skipped as before; only if nothing else is left
  of the text, those of the tail are skipped as well.
-/
theorem blanks_breaks
    {text : List Char}
    (hTail : Breaks tail)
    (hWhole : Whole text) :
    blanks (text ++ tail) =
      if blanks text = [] then
        blanks tail
      else
        blanks text ++ tail :=
  skipWith_breaks (not_enclosing (by decide)) hTail hWhole

end Followed

end Scanner

end MapStyle
