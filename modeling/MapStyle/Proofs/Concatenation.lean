import Mathlib
import MapStyle.Proofs.TermExtension

/-
  Programs after each other and inside each other. The
  statements that are accepted at the front of a text are
  accepted there too when more text follows, whatever ends
  them; so programs can be joined by a semicolon on a line of
  its own, and a program can be put into a block.

  Key definitions include:
    * `Grammar.Accepts`

  Main statements:
    * `Grammar.accepts_iff`
    * `Grammar.Accepts.append`
    * `Grammar.Accepts.of_length_lt`
    * `Program.read_eq_ok_iff`
    * `Program.read_joined`
-/

namespace MapStyle

namespace Grammar

open Scanner

------------------------------------------------------------
-- Arguments of statements
------------------------------------------------------------

section Arguments

variable {tail : List Char} {n : Nat}
variable {whole longer : Scanner Term}

/- Go on after blanks, of which there is at least one. -/
def spaced
    {α : Type}
    (scan : Scanner α) : Scanner α :=
  fun text =>
    match text with
    | [] => none
    | c :: _ =>
        if isInlineBlank c then
          scan (text.dropWhile isInlineBlank)
        else
          none

/- The arguments of a statement as a scanner. -/
def argumentsOf
    (whole : Scanner Term) : Scanner (List Argument) :=
  fun text => some (statementArguments whole text)

theorem argumentsOf_eq :
    argumentsOf whole =
      either (parenthesized whole)
        (either (spaced (listed (argument whole)))
          (yield [])) := by
  funext text
  rw [argumentsOf, statementArguments.eq_def, either]
  cases parenthesized whole text with
  | some found => rfl
  | none =>
      cases text with
      | nil => rfl
      | cons c rest =>
          simp only [either, spaced]
          split
          · cases listed (argument whole)
                ((c :: rest).dropWhile isInlineBlank) with
            | none => rfl
            | some found => rfl
          · rfl

theorem extends_spaced
    {α : Type}
    {scan scan' : Scanner α}
    (hTail : Breaks tail)
    (h : Extends tail n scan scan') :
    Extends tail n (spaced scan) (spaced scan') := by
  have hPasses (text : List Char) :
      Passes text (text.dropWhile isInlineBlank) :=
    passes_dropWhile (not_enclosing (by decide)) text
  constructor
  · intro text a rest hRead
    cases text with
    | nil => cases hRead
    | cons c text =>
        simp only [spaced] at hRead
        split at hRead
        · exact (hPasses (c :: text)).trans (h.passes hRead)
        · cases hRead
  · intro text hWhole hLength
    cases text with
    | nil =>
        cases tail with
        | nil => rfl
        | cons c rest =>
            cases hTail.line c rfl
            rfl
    | cons c text =>
        have hOutside : BeginsOutside isInlineBlank tail :=
          hTail.beginsOutside (by decide)
        have hDrop := dropWhile_breaks hOutside (c :: text)
        have hMore := Nat.lt_of_le_of_lt
          (hPasses (c :: text)).length_le hLength
        have hRead :=
          h.append ((hPasses (c :: text)).whole hWhole) hMore
        rw [List.cons_append] at hDrop
        simp only [spaced, List.cons_append, hDrop, hRead]
        split
        · rfl
        · rfl

theorem extends_argumentsOf
    (hTail : Breaks tail)
    (hWhole : ExtendsItem tail n whole longer) :
    Extends tail n (argumentsOf whole) (argumentsOf longer) := by
  have hParenthesized :=
    (extends_parenthesized hTail hWhole).mono (Nat.le_succ n)
  have hListed :=
    extends_listed hTail (extends_argument hTail hWhole)
  rw [argumentsOf_eq, argumentsOf_eq]
  exact hParenthesized.either
    ((extends_spaced hTail hListed).either (extends_yield []))

/-
  The arguments of a statement stay the same when more text
  follows.
-/
theorem statementArguments_breaks
    {m : Nat}
    {text : List Char}
    (hTail : Breaks tail)
    (hLe : n ≤ m)
    (hWhole : Whole text)
    (hLength : text.length < n) :
    statementArguments (termWithin m) (text ++ tail) =
      ((statementArguments (termWithin n) text).1,
        (statementArguments (termWithin n) text).2 ++ tail) := by
  have hTerm : ExtendsItem tail n (termWithin n) (termWithin m) :=
    ⟨extends_termWithin hTail hLe, silent_termWithin n,
      silent_termWithin m⟩
  have hRead :=
    (extends_argumentsOf hTail hTerm).append hWhole hLength
  simpa only [argumentsOf, carried_some, Option.some.injEq]
    using hRead

theorem passes_statementArguments
    (n : Nat)
    (text : List Char) :
    Passes text (statementArguments (termWithin n) text).2 := by
  have hTerm : ExtendsItem [] n (termWithin n) (termWithin n) :=
    ⟨extends_termWithin breaks_nil (Nat.le_refl n),
      silent_termWithin n, silent_termWithin n⟩
  exact (extends_argumentsOf breaks_nil hTerm).passes rfl

/- A brace after a blank begins no arguments. -/
theorem statementArguments_brace
    (n : Nat)
    (rest : List Char) :
    statementArguments (termWithin n) (' ' :: '\x7b' :: rest) =
      ([], ' ' :: '\x7b' :: rest) := by
  have hStops : Stops ('\x7b' :: rest) :=
    stops_cons (by decide) rest
  have hListed :
      listed (argument (termWithin n)) ('\x7b' :: rest) = none :=
    silent_listed (silent_argument (silent_termWithin n)) hStops
  have hParenthesized :
      parenthesized (termWithin n) (' ' :: '\x7b' :: rest) =
        none := by
    simp [parenthesized, bracketed]
  have hDrop :
      (' ' :: '\x7b' :: rest).dropWhile isInlineBlank =
        '\x7b' :: rest := by
    simp [isInlineBlank]
  rw [statementArguments.eq_def, hParenthesized]
  simp only [hDrop, hListed]
  rfl

end Arguments

------------------------------------------------------------
-- Accepted statements
------------------------------------------------------------

/-
  The statements that stand at the front of a text within a
  bound, and what follows them. A brace that no block follows
  is not accepted after a statement.
-/
inductive Accepts :
    Nat → List Char → List Statement → List Char → Prop
  | done
      {n : Nat}
      {text : List Char}
      (hEnd : atBlockEnd (separators text) = true) :
      Accepts (n + 1) text [] (separators text)
  | plain
      {n : Nat}
      {name : String}
      {args : List Argument}
      {more : List Statement}
      {text after middle last : List Char}
      (hName : identifier (separators text) = some (name, after))
      (hArgs :
        statementArguments (termWithin n) after = (args, middle))
      (hBrace : strip? ['\x7b'] (inlineBlanks middle) = none)
      (hEnd : atStatementEnd (inlineBlanks middle) = true)
      (hMore : Accepts n (inlineBlanks middle) more last) :
      Accepts (n + 1) text (.mk name args none :: more) last
  | block
      {n : Nat}
      {name : String}
      {args : List Argument}
      {body more : List Statement}
      {text after middle inner closed rest last : List Char}
      (hName : identifier (separators text) = some (name, after))
      (hArgs :
        statementArguments (termWithin n) after = (args, middle))
      (hOpen :
        strip? ['\x7b'] (inlineBlanks middle) = some inner)
      (hBody : Accepts n inner body closed)
      (hClose : strip? ['\x7d'] closed = some rest)
      (hEnd : atStatementEnd (inlineBlanks rest) = true)
      (hMore : Accepts n (inlineBlanks rest) more last) :
      Accepts (n + 1) text (.mk name args (some body) :: more)
        last

theorem atBlockEnd_of_identifier
    {text rest : List Char}
    {name : String}
    (h : identifier text = some (name, rest)) :
    atBlockEnd text = false := by
  cases text with
  | nil => cases h
  | cons c text =>
      simp only [atBlockEnd, decide_eq_false_iff_not]
      rintro rfl
      cases h

theorem bind_eq_ok_iff
    {ε α β : Type}
    {x : Except ε α}
    {f : α → Except ε β}
    {b : β} :
    x >>= f = .ok b ↔ ∃ a, x = .ok a ∧ f a = .ok b := by
  cases x with
  | error e => simp [bind, Except.bind]
  | ok a => simp [bind, Except.bind]

/-
  After a statement stands no brace, a brace that is not closed
  or a block.
-/
theorem block_eq_ok_iff
    {inner : Statements}
    {text rest : List Char}
    {body : Option (List Statement)} :
    block inner text = .ok (body, rest) ↔
      (strip? ['\x7b'] (inlineBlanks text) = none ∧
        body = none ∧ rest = text) ∨
      ∃ opened program closed,
        strip? ['\x7b'] (inlineBlanks text) = some opened ∧
          inner opened = .ok (program, closed) ∧
          ((strip? ['\x7d'] closed = none ∧
              body = none ∧ rest = text) ∨
            (strip? ['\x7d'] closed = some rest ∧
              body = some program)) := by
  rw [block]
  cases strip? ['\x7b'] (inlineBlanks text) with
  | none => simp [eq_comm]
  | some opened =>
      simp only [bind_eq_ok_iff, Prod.exists]
      constructor
      · rintro ⟨program, closed, hInner, hClose⟩
        refine .inr ⟨opened, program, closed, rfl, hInner, ?_⟩
        cases hMark : strip? ['\x7d'] closed with
        | none =>
            rw [hMark] at hClose
            cases hClose
            exact .inl ⟨rfl, rfl, rfl⟩
        | some after =>
            rw [hMark] at hClose
            cases hClose
            exact .inr ⟨rfl, rfl⟩
      · rintro (⟨⟨⟩, -⟩ |
          ⟨_, program, closed, ⟨⟩, hInner, hClose⟩)
        refine ⟨program, closed, hInner, ?_⟩
        rcases hClose with ⟨hMark, rfl, rfl⟩ | ⟨hMark, rfl⟩
        · rw [hMark]
          rfl
        · rw [hMark]
          rfl

/- A step of the grammar that fails nowhere. -/
theorem statementsWithin_succ_eq_ok_iff
    {n : Nat}
    {text rest : List Char}
    {program : List Statement} :
    statementsWithin (n + 1) text = .ok (program, rest) ↔
      (atBlockEnd (separators text) = true ∧
        program = [] ∧ rest = separators text) ∨
      ∃ name after args middle body ending more,
        identifier (separators text) = some (name, after) ∧
          statementArguments (termWithin n) after =
            (args, middle) ∧
          block (statementsWithin n) middle =
            .ok (body, ending) ∧
          atStatementEnd (inlineBlanks ending) = true ∧
          statementsWithin n (inlineBlanks ending) =
            .ok (more, rest) ∧
          program = .mk name args body :: more := by
  rw [statementsWithin]
  constructor
  · intro h
    dsimp only at h
    split at h
    · rename_i hEnd
      cases h
      exact .inl ⟨hEnd, rfl, rfl⟩
    · split at h
      · cases h
      · rename_i name after hName
        rcases bind_eq_ok_iff.mp h with
          ⟨⟨body, ending⟩, hBlock, h⟩
        dsimp only at h
        split at h
        · rename_i hEnd
          rcases bind_eq_ok_iff.mp h with ⟨⟨more, last⟩, hMore, h⟩
          cases h
          exact .inr ⟨name, after, _, _, body, ending, more,
            hName, rfl, hBlock, hEnd, hMore, rfl⟩
        · cases h
  · rintro (⟨hEnd, rfl, rfl⟩ |
      ⟨name, after, args, middle, body, ending, more, hName,
        hArgs, hBlock, hEnd, hMore, rfl⟩)
    · exact if_pos hEnd
    · have hStart := atBlockEnd_of_identifier hName
      simp only [hStart, hName, hArgs]
      refine bind_eq_ok_iff.mpr ⟨_, hBlock, ?_⟩
      rw [if_pos hEnd]
      exact bind_eq_ok_iff.mpr ⟨_, hMore, rfl⟩

/- What is accepted is what the grammar reads. -/
theorem accepts_iff
    {n : Nat}
    {text rest : List Char}
    {program : List Statement} :
    Accepts n text program rest ↔
      statementsWithin n text = .ok (program, rest) := by
  constructor
  · intro h
    induction h with
    | done hEnd =>
        rw [statementsWithin_succ_eq_ok_iff]
        exact .inl ⟨hEnd, rfl, rfl⟩
    | plain hName hArgs hBrace hEnd _ ih =>
        rw [statementsWithin_succ_eq_ok_iff]
        exact .inr
          ⟨_, _, _, _, _, _, _, hName, hArgs,
            block_eq_ok_iff.mpr (.inl ⟨hBrace, rfl, rfl⟩), hEnd,
            ih, rfl⟩
    | block hName hArgs hOpen _ hClose hEnd _ ihBody ihMore =>
        rw [statementsWithin_succ_eq_ok_iff]
        exact .inr
          ⟨_, _, _, _, _, _, _, hName, hArgs,
            block_eq_ok_iff.mpr
              (.inr ⟨_, _, _, hOpen, ihBody, .inr ⟨hClose, rfl⟩⟩),
            hEnd, ihMore, rfl⟩
  · intro h
    induction n generalizing text program rest with
    | zero => cases h
    | succ n ih =>
        rw [statementsWithin_succ_eq_ok_iff] at h
        rcases h with ⟨hEnd, rfl, rfl⟩ |
          ⟨name, after, args, middle, body, ending, more, hName,
            hArgs, hBlock, hEnd, hMore, rfl⟩
        · exact .done hEnd
        · rcases block_eq_ok_iff.mp hBlock with
            ⟨hBrace, rfl, rfl⟩ |
            ⟨opened, inside, closed, hOpen, hInside,
              ⟨-, rfl, rfl⟩ | ⟨hClose, rfl⟩⟩
          · exact .plain hName hArgs hBrace hEnd (ih hMore)
          · rw [strip?_eq_some_iff.mp hOpen] at hEnd
            cases hEnd
          · exact .block hName hArgs hOpen (ih hInside) hClose
              hEnd (ih hMore)

------------------------------------------------------------
-- Accepted statements that something follows
------------------------------------------------------------

section Followed

variable {n : Nat} {text rest : List Char}
variable {program : List Statement}

theorem passes_identifier
    {name : String}
    (h : identifier text = some (name, rest)) :
    Passes text rest := by
  have hName : Extends [] 0 identifier identifier :=
    extends_identifier breaks_nil
  exact hName.passes h

theorem length_of_identifier
    {name : String}
    (h : identifier text = some (name, rest)) :
    rest.length < text.length := by
  cases text with
  | nil => cases h
  | cons c text =>
      rw [identifier] at h
      split at h
      · cases h
        exact Nat.lt_succ_of_le (length_dropWhile_le _ text)
      · cases h

/- Up to its block or end, a statement passes its text. -/
theorem passes_front
    {after middle : List Char}
    {name : String}
    {args : List Argument}
    (hName : identifier (separators text) = some (name, after))
    (hArgs :
      statementArguments (termWithin n) after = (args, middle)) :
    Passes text middle := by
  have hMiddle := passes_statementArguments n after
  rw [hArgs] at hMiddle
  exact (passes_separators text).trans
    ((passes_identifier hName).trans hMiddle)

theorem Accepts.passes
    (h : Accepts n text program rest) : Passes text rest := by
  induction h with
  | done => exact passes_separators _
  | plain hName hArgs _ _ _ ih =>
      exact (passes_front hName hArgs).trans
        ((passes_inlineBlanks _).trans ih)
  | block hName hArgs hOpen _ hClose _ _ ihBody ihMore =>
      have hInner := (passes_front hName hArgs).trans
        ((passes_inlineBlanks _).trans
          (passes_of_strip? (by decide) hOpen))
      have hAfter := (hInner.trans ihBody).trans
        (passes_of_strip? (by decide) hClose)
      exact (hAfter.trans (passes_inlineBlanks _)).trans ihMore

/- Separators in front of the text make no difference. -/
theorem Accepts.of_separators
    {text' : List Char}
    (hText : separators text = separators text')
    (h : Accepts n text program rest) :
    Accepts n text' program rest := by
  cases h with
  | done hEnd =>
      rw [hText] at hEnd ⊢
      exact .done hEnd
  | plain hName hArgs hBrace hEnd hMore =>
      rw [hText] at hName
      exact .plain hName hArgs hBrace hEnd hMore
  | block hName hArgs hOpen hBody hClose hEnd hMore =>
      rw [hText] at hName
      exact .block hName hArgs hOpen hBody hClose hEnd hMore

end Followed

section Appending

variable {tail : List Char}

theorem separators_breaks
    {text : List Char}
    (hTail : Breaks tail)
    (hWhole : Whole text) :
    separators (text ++ tail) =
      if separators text = [] then
        separators tail
      else
        separators text ++ tail :=
  skipWith_breaks (not_enclosing (by decide)) hTail hWhole

theorem identifier_breaks
    {text rest : List Char}
    {name : String}
    (hTail : Breaks tail)
    (hWhole : Whole text)
    (h : identifier text = some (name, rest)) :
    identifier (text ++ tail) = some (name, rest ++ tail) := by
  have hName :
      Extends tail (text.length + 1) identifier identifier :=
    extends_identifier hTail
  rw [hName.append hWhole (Nat.lt_succ_self _), h]
  rfl

theorem strip?_inlineBlanks_breaks
    {mark text : List Char}
    {found : Option (List Char)}
    (hTail : Breaks tail)
    (hWhole : Whole text)
    (hMark : '\n' ∉ mark)
    (h : strip? mark (inlineBlanks text) = found) :
    strip? mark (inlineBlanks (text ++ tail)) =
      found.map (· ++ tail) := by
  rw [inlineBlanks_breaks hTail hWhole, strip?_breaks hTail hMark,
    h]

theorem atStatementEnd_breaks
    {text : List Char}
    (hTail : Breaks tail)
    (h : atStatementEnd text = true) :
    atStatementEnd (text ++ tail) = true := by
  cases text with
  | nil =>
      cases tail with
      | nil => rfl
      | cons c rest =>
          cases hTail.line c rfl
          rfl
  | cons c text => exact h

theorem atBlockEnd_append
    {text : List Char}
    (h : atBlockEnd text = true)
    (hSome : text ≠ []) : atBlockEnd (text ++ tail) = true := by
  cases text with
  | nil => exact absurd rfl hSome
  | cons c text => exact h

section Statement

variable {n m : Nat} {text after middle : List Char}
variable {name : String} {args : List Argument}

/- The text is shorter after the name of a statement. -/
theorem length_front
    (hName : identifier (separators text) = some (name, after))
    (hArgs :
      statementArguments (termWithin n) after = (args, middle)) :
    middle.length < text.length := by
  have hMiddle : middle.length ≤ after.length := by
    simpa [hArgs] using
      (passes_statementArguments n after).length_le
  have hAfter := length_of_identifier hName
  have hText := (passes_separators text).length_le
  omega

/- The name and arguments of a statement stay the same. -/
theorem front_breaks
    (hTail : Breaks tail)
    (hLe : n ≤ m)
    (hWhole : Whole text)
    (hLength : text.length ≤ n)
    (hName : identifier (separators text) = some (name, after))
    (hArgs :
      statementArguments (termWithin n) after = (args, middle)) :
    identifier (separators (text ++ tail)) =
        some (name, after ++ tail) ∧
      statementArguments (termWithin m) (after ++ tail) =
        (args, middle ++ tail) := by
  have hStart := (passes_separators text).whole hWhole
  have hAfter := (passes_identifier hName).whole hStart
  have hSome : separators text ≠ [] := by
    intro hNil
    rw [hNil] at hName
    cases hName
  have hShort : after.length < n := by
    have hFront := length_of_identifier hName
    have hText := (passes_separators text).length_le
    omega
  constructor
  · rw [separators_breaks hTail hWhole, if_neg hSome]
    exact identifier_breaks hTail hStart hName
  · rw [statementArguments_breaks hTail hLe hAfter hShort, hArgs]

/- A statement without a block, with more text after it. -/
theorem accepts_plain_breaks
    {next : List Statement}
    {last : List Char}
    (hTail : Breaks tail)
    (hLe : n ≤ m)
    (hWhole : Whole text)
    (hLength : text.length ≤ n)
    (hName : identifier (separators text) = some (name, after))
    (hArgs :
      statementArguments (termWithin n) after = (args, middle))
    (hBrace : strip? ['\x7b'] (inlineBlanks middle) = none)
    (hEnd : atStatementEnd (inlineBlanks middle) = true)
    (hNext : Accepts m (inlineBlanks middle ++ tail) next last) :
    Accepts (m + 1) (text ++ tail) (.mk name args none :: next)
      last := by
  have hFront :=
    front_breaks hTail hLe hWhole hLength hName hArgs
  have hMiddle := (passes_front hName hArgs).whole hWhole
  have hBrace := strip?_inlineBlanks_breaks hTail hMiddle
    (by decide) hBrace
  have hEnd := atStatementEnd_breaks hTail hEnd
  rw [← inlineBlanks_breaks hTail hMiddle] at hEnd hNext
  exact .plain hFront.1 hFront.2 hBrace hEnd hNext

/- A statement with a block, with more text after it. -/
theorem accepts_block_breaks
    {body next : List Statement}
    {inner closed ending last : List Char}
    (hTail : Breaks tail)
    (hLe : n ≤ m)
    (hWhole : Whole text)
    (hLength : text.length ≤ n)
    (hName : identifier (separators text) = some (name, after))
    (hArgs :
      statementArguments (termWithin n) after = (args, middle))
    (hOpen : strip? ['\x7b'] (inlineBlanks middle) = some inner)
    (hEnding : Passes middle ending)
    (hBody : Accepts m (inner ++ tail) body (closed ++ tail))
    (hClose : strip? ['\x7d'] closed = some ending)
    (hEnd : atStatementEnd (inlineBlanks ending) = true)
    (hNext : Accepts m (inlineBlanks ending ++ tail) next last) :
    Accepts (m + 1) (text ++ tail)
      (.mk name args (some body) :: next) last := by
  have hFront :=
    front_breaks hTail hLe hWhole hLength hName hArgs
  have hMiddle := (passes_front hName hArgs).whole hWhole
  have hOpen := strip?_inlineBlanks_breaks hTail hMiddle
    (by decide) hOpen
  have hClose :
      strip? ['\x7d'] (closed ++ tail) =
        some (ending ++ tail) := by
    rw [strip?_breaks hTail (by decide), hClose]
    rfl
  have hEnd := atStatementEnd_breaks hTail hEnd
  rw [← inlineBlanks_breaks hTail (hEnding.whole hMiddle)]
    at hEnd hNext
  exact .block hFront.1 hFront.2 hOpen hBody hClose hEnd hNext

end Statement

/-
  The statements that a whole text begins with stay what they
  are when more text follows. If they are all of the text, the
  statements of the tail come after them.
-/
theorem Accepts.append
    {n m : Nat}
    {text rest last : List Char}
    {program more : List Statement}
    (hTail : Breaks tail)
    (hMore : ∀ k, tail.length < k → Accepts k tail more last)
    (h : Accepts n text program rest)
    (hWhole : Whole text)
    (hLength : text.length < n)
    (hBound : n + tail.length ≤ m) :
    (rest = [] → Accepts m (text ++ tail) (program ++ more) last) ∧
      (rest ≠ [] →
        Accepts m (text ++ tail) program (rest ++ tail)) := by
  induction h generalizing m with
  | @done n text hEnd =>
      -- Separators that end the text go on in the tail.
      have hSeparators := separators_breaks hTail hWhole
      constructor
      · intro hRest
        rw [if_pos hRest] at hSeparators
        exact (hMore m (by omega)).of_separators hSeparators.symm
      · intro hRest
        rw [if_neg hRest] at hSeparators
        obtain ⟨m, rfl⟩ : ∃ k, m = k + 1 := ⟨m - 1, by omega⟩
        rw [← hSeparators]
        refine .done ?_
        rw [hSeparators]
        exact atBlockEnd_append hEnd hRest
  | @plain n name args next text after middle rest hName hArgs
      hBrace hEnd _ ih =>
      obtain ⟨m, rfl⟩ : ∃ k, m = k + 1 := ⟨m - 1, by omega⟩
      have hShort := length_front hName hArgs
      have hMiddle := (passes_front hName hArgs).whole hWhole
      have hBlanks := passes_inlineBlanks middle
      have hBlanksLength := hBlanks.length_le
      have hStep {next last} :
          Accepts m (inlineBlanks middle ++ tail) next last →
            Accepts (m + 1) (text ++ tail)
              (.mk name args none :: next) last :=
        accepts_plain_breaks hTail (by omega) hWhole (by omega)
          hName hArgs hBrace hEnd
      have hNext := ih (m := m) (hBlanks.whole hMiddle)
        (by omega) (by omega)
      exact ⟨fun hRest => hStep (hNext.1 hRest),
        fun hRest => hStep (hNext.2 hRest)⟩
  | @block n name args body next text after middle inner closed
      ending rest hName hArgs hOpen hBody hClose hEnd _
      ihBody ihMore =>
      obtain ⟨m, rfl⟩ : ∃ k, m = k + 1 := ⟨m - 1, by omega⟩
      have hShort := length_front hName hArgs
      have hMiddle := (passes_front hName hArgs).whole hWhole
      have hInner : Passes middle inner :=
        (passes_inlineBlanks middle).trans
          (passes_of_strip? (by decide) hOpen)
      have hEnding : Passes middle ending :=
        (hInner.trans hBody.passes).trans
          (passes_of_strip? (by decide) hClose)
      have hBlanks := hEnding.trans (passes_inlineBlanks ending)
      have hInnerLength := hInner.length_le
      have hBlanksLength := hBlanks.length_le
      -- The body ends at its brace, so the tail is not reached.
      have hSome : closed ≠ [] := by
        rintro rfl
        cases hClose
      have hBody := (ihBody (m := m) (hInner.whole hMiddle)
        (by omega) (by omega)).2 hSome
      have hStep {next last} :
          Accepts m (inlineBlanks ending ++ tail) next last →
            Accepts (m + 1) (text ++ tail)
              (.mk name args (some body) :: next) last :=
        accepts_block_breaks hTail (by omega) hWhole (by omega)
          hName hArgs hOpen hEnding hBody hClose hEnd
      have hNext := ihMore (m := m) (hBlanks.whole hMiddle)
        (by omega) (by omega)
      exact ⟨fun hRest => hStep (hNext.1 hRest),
        fun hRest => hStep (hNext.2 hRest)⟩

/- A name is not separated from what it begins. -/
theorem identifier_separators
    {name : String}
    (h : identifier name.toList = some (name, []))
    (rest : List Char) :
    identifier (separators (name.toList ++ ' ' :: rest)) =
      some (name, ' ' :: rest) := by
  have hName : isName name = true :=
    (yields_identifier.of_some h).1
  rcases toList_of_isName hName with ⟨c, more, hChars, hStart, -⟩
  have hOutside : (isLineBlank c || c = ';') = false := by
    cases hSkipped : (isLineBlank c || c = ';') with
    | false => rfl
    | true =>
        simp [isLineBlank, or_assoc] at hSkipped
        rcases hSkipped with rfl | rfl | rfl | rfl | rfl <;>
          cases hStart
  have hComment : c ≠ '#' := by
    rintro rfl
    cases hStart
  have hStarts :
      separators (name.toList ++ ' ' :: rest) =
        name.toList ++ ' ' :: rest := by
    rw [hChars, List.cons_append, separators, skipWith]
    simp [hOutside, hComment]
  have hBlank : BeginsOutside isNameChar (' ' :: rest) := by
    rw [beginsOutside_cons]
    decide
  rw [hStarts]
  exact identifier_append hName hBlank

theorem accepts_nil
    {n : Nat}
    (h : 0 < n) : Accepts n [] [] [] := by
  obtain ⟨n, rfl⟩ : ∃ k, n = k + 1 := ⟨n - 1, by omega⟩
  have hEmpty : separators [] = [] := by
    rw [separators, skipWith]
  have hDone : Accepts (n + 1) [] [] (separators []) :=
    .done (by rw [hEmpty]; rfl)
  rwa [hEmpty] at hDone

/- A greater bound makes no difference once it is enough. -/
theorem Accepts.mono
    {n m : Nat}
    {text : List Char}
    {program : List Statement}
    (h : Accepts n text program [])
    (hLength : text.length < n)
    (hLe : n ≤ m) : Accepts m text program [] := by
  have hAppend := h.append breaks_nil (fun _ => accepts_nil)
    h.passes hLength (by simpa using hLe)
  simpa using hAppend.1 rfl

end Appending

end Grammar

------------------------------------------------------------
-- Programs
------------------------------------------------------------

namespace Program

open Scanner Grammar

/- A program is read if it is accepted within every bound. -/
theorem read_eq_ok_iff
    {source : String}
    {program : Program} :
    read source = .ok program ↔
      ∀ n, source.toList.length < n →
        Accepts n source.toList program [] := by
  have hRead :
      read source = .ok program ↔
        Accepts (source.toList.length + 1) source.toList program
          [] := by
    rw [accepts_iff, read, statements]
    split
    · rename_i found hFound
      simp [hFound]
    · rename_i found remaining hSome hFound
      simp only [hFound, reduceCtorEq, false_iff]
      rintro ⟨⟩
      exact hSome rfl
    · rename_i remaining hFound
      simp [hFound]
  rw [hRead]
  constructor
  · intro h n hLength
    exact h.mono (Nat.lt_succ_self _) hLength
  · intro h
    exact h _ (Nat.lt_succ_self _)

/-
  A text after another and a semicolon on a line of its own is
  read as the statements of both.
-/
theorem read_joined
    {first second : String}
    {program more : Program}
    (hFirst : read first = .ok program)
    (hSecond : read second = .ok more) :
    read (first ++ "\n;\n" ++ second) = .ok (program ++ more) := by
  let tail := '\n' :: ';' :: '\n' :: second.toList
  have hText :
      (first ++ "\n;\n" ++ second).toList =
        first.toList ++ tail := by
    simp [tail]
  have hSeparators :
      separators second.toList = separators tail := by
    simp [tail, separators, skipWith, isLineBlank]
  have hTail : Breaks tail := breaks_cons (by decide) _
  have hMore (k : Nat) (hk : tail.length < k) :
      Accepts k tail more [] := by
    have hBound : second.toList.length < k := by
      simp only [tail, List.length_cons] at hk
      omega
    exact (read_eq_ok_iff.mp hSecond k hBound).of_separators
      hSeparators
  rw [read_eq_ok_iff, hText]
  intro n hLength
  rw [List.length_append] at hLength
  have hProgram :=
    read_eq_ok_iff.mp hFirst _ (Nat.lt_succ_self _)
  have hBound : first.toList.length.succ + tail.length ≤ n := by
    omega
  have hAppend := hProgram.append hTail hMore
    hProgram.passes (Nat.lt_succ_self _) hBound
  exact hAppend.1 rfl

/- A text within braces after a name is read as its block. -/
theorem read_enclosed
    {source name : String}
    {program : Program}
    (hName : identifier name.toList = some (name, []))
    (h : read source = .ok program) :
    read (name ++ " \x7b\n" ++ source ++ "\n\x7d") =
      .ok [.mk name [] (some program)] := by
  let tail := ['\n', '\x7d']
  let inner := '\n' :: (source.toList ++ tail)
  have hText :
      (name ++ " \x7b\n" ++ source ++ "\n\x7d").toList =
        name.toList ++ ' ' :: '\x7b' :: inner := by
    simp [inner, tail]
  have hTail : Breaks tail := breaks_cons (by decide) _
  have hClosing (k : Nat) (hk : tail.length < k) :
      Accepts k tail [] ['\x7d'] := by
    obtain ⟨k, rfl⟩ : ∃ j, k = j + 1 := ⟨k - 1, by omega⟩
    have hSkip : separators tail = ['\x7d'] := by
      simp [tail, separators, skipWith, isLineBlank]
    rw [← hSkip]
    exact .done (by rw [hSkip]; rfl)
  have hInner :
      separators (source.toList ++ tail) = separators inner := by
    simp [inner, separators, skipWith, isLineBlank]
  have hOpen :
      strip? ['\x7b'] (inlineBlanks (' ' :: '\x7b' :: inner)) =
        some inner := by
    simp [inlineBlanks, isInlineBlank, comment]
  rw [read_eq_ok_iff, hText]
  intro n hLength
  simp only [inner, tail, List.length_append, List.length_cons,
    List.length_nil] at hLength
  obtain ⟨n, rfl⟩ : ∃ k, n = k + 1 := ⟨n - 1, by omega⟩
  have hProgram := read_eq_ok_iff.mp h _ (Nat.lt_succ_self _)
  have hBound : source.toList.length.succ + tail.length ≤ n := by
    simp only [tail, List.length_cons, List.length_nil]
    omega
  have hAppend := hProgram.append hTail hClosing
    hProgram.passes (Nat.lt_succ_self _) hBound
  have hBody := (hAppend.1 rfl).of_separators hInner
  rw [List.append_nil] at hBody
  exact .block (identifier_separators hName _)
    (statementArguments_brace n inner) hOpen hBody rfl rfl
    (accepts_nil (by omega))

/-
  Programs are read after each other as they are read alone,
  and so is a program in a block, whatever they begin or end
  with.
-/
theorem read_composed
    {first second : String}
    {program more : Program}
    (hFirst : read first = .ok program)
    (hSecond : read second = .ok more) :
    read (first ++ "\n;\n" ++ second) = .ok (program ++ more) ∧
      ∀ name : String,
        identifier name.toList = some (name, []) →
          read (name ++ " \x7b\n" ++ first ++ "\n\x7d") =
            .ok [.mk name [] (some program)] :=
  ⟨read_joined hFirst hSecond,
    fun _ hName => read_enclosed hName hFirst⟩

/- A block, and a statement with a comma at its end. -/
def labelledRoads : Program :=
  [.mk "road" []
      (some
        [.mk "width" [.positional (.literal (.int 2))] none]),
    .mk "label" [.positional (.ident "names")] none]

/- An open range at the end. -/
def farZooms : Program :=
  [.mk "zoom"
    [.positional (.range (some (.literal (.int 8))) none)] none]

/-
  A comma and a comment at the end of one program, and an open
  range at the end of the other.
-/
theorem read_composed_roads :
    read "road \x7b\n  width 2\n\x7d\nlabel names, # last" =
        .ok labelledRoads ∧
      read "zoom 8.." = .ok farZooms ∧
      read
          "road \x7b\n  width 2\n\x7d\nlabel names, # last\n;\nzoom 8.." =
        .ok (labelledRoads ++ farZooms) ∧
      read "on_map \x7b\nzoom 8..\n\x7d" =
        .ok [.mk "on_map" [] (some farZooms)] := by
  have hRoads :
      read "road \x7b\n  width 2\n\x7d\nlabel names, # last" =
        .ok labelledRoads := by
    cbv
  have hZooms : read "zoom 8.." = .ok farZooms := by
    cbv
  have hName :
      identifier "on_map".toList = some ("on_map", []) := by
    cbv
  exact ⟨hRoads, hZooms, (read_composed hRoads hZooms).1,
    (read_composed hZooms hRoads).2 "on_map" hName⟩

end Program

end MapStyle
