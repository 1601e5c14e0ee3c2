import MapStyle.Proofs.Lexing

/-
  Scanners of a text that something else follows. A scanner
  extends another if it reads the same of a whole text when
  more text follows. A few combinations of scanners pass this
  on; names and literals are written in terms of them.

  Key definitions include:
    * `Scanner.andThen`
    * `Scanner.afterMark`
    * `Scanner.skipping`
    * `Scanner.Extends`

  Main statements:
    * `Scanner.Extends.andThen`
    * `Scanner.ExtendsItem.skippingBlanks`
    * `Scanner.Extends.repeated`
    * `Scanner.extends_literal`
-/

namespace MapStyle

namespace Scanner

------------------------------------------------------------
-- Combinations of scanners
------------------------------------------------------------

section Combinations

variable {α β : Type}

/- Read nothing of the text. -/
def yield (a : α) : Scanner α :=
  fun text => some (a, text)

/- Go on after what another scanner reads. -/
def andThen
    (scan : Scanner α)
    (next : α → Scanner β) : Scanner β :=
  fun text => do
    let (a, rest) ← scan text
    next a rest

/- Go on with what a reading stands for, if it does. -/
def given
    (a : Option α)
    (next : α → Scanner β) : Scanner β :=
  fun text => do
    let a ← a
    next a text

/- Go on after a mark. -/
def afterMark
    (mark : List Char)
    (scan : Scanner α) : Scanner α :=
  fun text => do
    let rest ← strip? mark text
    scan rest

/- Go on where a mark does not stand. -/
def unlessMark
    (mark : List Char)
    (scan : Scanner α) : Scanner α :=
  fun text =>
    if (strip? mark text).isSome then none else scan text

/- Go on after a mark, or otherwise where it does not stand. -/
def ifMark
    (mark : List Char)
    (scan other : Scanner α) : Scanner α :=
  fun text =>
    match strip? mark text with
    | some rest => scan rest
    | none => other text

/- Go on after what is skipped. -/
def skipping
    (skip : List Char → List Char)
    (scan : Scanner α) : Scanner α :=
  fun text => scan (skip text)

/- Read as often as possible, perhaps not at all. -/
def repeated (scan : Scanner α) : Scanner (List α) :=
  fun text => some (many scan text)

/- Read once if possible. -/
def perhaps (scan : Scanner α) : Scanner (Option α) :=
  fun text => some (optionally scan text)

end Combinations

------------------------------------------------------------
-- Readings that what follows does not change
------------------------------------------------------------

/- A reading with more text after what it leaves. -/
def carried
    {α : Type}
    (tail : List Char)
    (reading : Option (α × List Char)) :
    Option (α × List Char) :=
  reading.map fun (a, rest) => (a, rest ++ tail)

/- The tail goes behind what is left. -/
@[simp] theorem carried_some
    {α : Type}
    {tail : List Char}
    (reading : α × List Char) :
    carried tail (some reading) =
      some (reading.1, reading.2 ++ tail) :=
  rfl

/-
  What the scanner reads of a whole text shorter than a bound,
  the longer one reads when the tail follows; where the
  scanner reads nothing, the longer one does not either. The
  two differ only in how many brackets inside each other they
  allow.
-/
structure Extends
    {α : Type}
    (tail : List Char)
    (n : Nat)
    (scan longer : Scanner α) : Prop where
  passes :
    ∀ {text a rest}, scan text = some (a, rest) →
      Passes text rest
  append :
    ∀ {text}, Whole text → text.length < n →
      longer (text ++ tail) = carried tail (scan text)

/- Nothing is read of a text that stops. -/
def Silent
    {α : Type}
    (scan : Scanner α) : Prop :=
  ∀ ⦃text⦄, Stops text → scan text = none

/- What is read of a text that stops leaves all of it. -/
def Rests
    {α : Type}
    (scan : Scanner α) : Prop :=
  ∀ ⦃text a rest⦄, Stops text → scan text = some (a, rest) →
    rest = text

/- An item that neither scanner finds in a text that stops. -/
structure ExtendsItem
    {α : Type}
    (tail : List Char)
    (n : Nat)
    (item longer : Scanner α) : Prop
    extends Extends tail n item longer where
  silent : Silent item
  silent' : Silent longer

/- What is skipped is the same whatever follows. -/
structure Skips
    (tail : List Char)
    (skip : List Char → List Char) : Prop where
  passes : ∀ text, Passes text (skip text)
  append :
    ∀ {text}, Whole text → skip (text ++ tail) = skip text ++ tail

/- Characters that may stand in a mark. -/
def isMarking (c : Char) : Bool :=
  c ∉ '\n' :: enclosing

section Extending

variable {α β : Type} {tail : List Char} {n : Nat}
variable {scan longer : Scanner α}

/- A lower bound asks for less. -/
theorem Extends.mono
    {k : Nat}
    (h : Extends tail n scan longer)
    (hLe : k ≤ n) : Extends tail k scan longer := by
  refine ⟨h.passes, ?_⟩
  intro text hWhole hLength
  exact h.append hWhole (Nat.lt_of_lt_of_le hLength hLe)

/- Nothing is read, and so nothing of the tail. -/
theorem extends_yield (a : α) :
    Extends tail n (yield a) (yield a) := by
  constructor
  · intro text b rest h
    cases h
    exact .none text
  · intro text hWhole hLength
    rfl

/-
  A chain of scanners: the second one reads a text that is
  whole and no longer than the first one's.
-/
theorem Extends.andThen
    {next next' : α → Scanner β}
    (hScan : Extends tail n scan longer)
    (hNext : ∀ a, Extends tail n (next a) (next' a)) :
    Extends tail n (andThen scan next) (andThen longer next') := by
  constructor
  · intro text b rest h
    simp only [Scanner.andThen, Option.bind_eq_bind,
      Option.bind_eq_some_iff, Prod.exists] at h
    rcases h with ⟨a, middle, hRead, h⟩
    exact (hScan.passes hRead).trans ((hNext a).passes h)
  · intro text hWhole hLength
    simp only [Scanner.andThen, hScan.append hWhole hLength]
    cases hRead : scan text with
    | none => rfl
    | some found =>
        have hPasses := hScan.passes hRead
        have hMore := Nat.lt_of_le_of_lt hPasses.length_le hLength
        exact (hNext found.1).append (hPasses.whole hWhole) hMore

/- A chain reads nothing if its first part does not. -/
theorem Silent.andThen
    {next : α → Scanner β}
    (h : Silent scan) : Silent (andThen scan next) := by
  intro text hStops
  rw [Scanner.andThen, h hStops]
  rfl

theorem ExtendsItem.andThen
    {next next' : α → Scanner β}
    (h : ExtendsItem tail n scan longer)
    (hNext : ∀ a, Extends tail n (next a) (next' a)) :
    ExtendsItem tail n (andThen scan next)
      (andThen longer next') :=
  ⟨h.toExtends.andThen hNext, h.silent.andThen,
    h.silent'.andThen⟩

/- A scanner that reads nothing leaves everything. -/
theorem Silent.rests
    (h : Silent scan) : Rests scan := by
  intro text a rest hStops hRead
  rw [h hStops] at hRead
  cases hRead

/- What a reading stands for does not depend on the text. -/
theorem Extends.given
    {next next' : α → Scanner β}
    (a : Option α)
    (hNext : ∀ a, Extends tail n (next a) (next' a)) :
    Extends tail n (given a next) (given a next') := by
  cases a with
  | none =>
      constructor
      · intro text b rest h
        cases h
      · intro text hWhole hLength
        rfl
  | some a => exact ⟨(hNext a).passes, (hNext a).append⟩

/-
  A mark encloses nothing, so the rest of a whole text is
  whole.
-/
theorem passes_of_strip?
    {mark text rest : List Char}
    (hMark : mark.all isMarking = true)
    (h : strip? mark text = some rest) : Passes text rest := by
  rw [strip?_eq_some_iff.mp h]
  refine passes_append ?_ rest
  intro c hc
  have hMarking := List.all_eq_true.mp hMark c hc
  simp only [isMarking, List.mem_cons, not_or,
    decide_eq_true_eq] at hMarking
  exact hMarking.2

/- A mark ends before its line does. -/
theorem newline_not_mem
    {mark : List Char}
    (hMark : mark.all isMarking = true) : '\n' ∉ mark := by
  intro hLine
  have hMarking := List.all_eq_true.mp hMark '\n' hLine
  exact absurd hMarking (by decide)

/- After a mark, the text is shorter. -/
theorem Extends.afterMark_add
    {mark : List Char}
    (hTail : Breaks tail)
    (hMark : mark.all isMarking = true)
    (h : Extends tail n scan longer) :
    Extends tail (n + mark.length) (afterMark mark scan)
      (afterMark mark longer) := by
  constructor
  · intro text a rest hRead
    simp only [Scanner.afterMark, Option.bind_eq_bind,
      Option.bind_eq_some_iff] at hRead
    rcases hRead with ⟨body, hStrip, hRead⟩
    exact (passes_of_strip? hMark hStrip).trans (h.passes hRead)
  · intro text hWhole hLength
    simp only [Scanner.afterMark,
      strip?_breaks hTail (newline_not_mem hMark)]
    cases hStrip : strip? mark text with
    | none => rfl
    | some rest =>
        have hPasses := passes_of_strip? hMark hStrip
        rw [strip?_eq_some_iff.mp hStrip,
          List.length_append] at hLength
        exact h.append (hPasses.whole hWhole) (by omega)

/- The same with the bound as it was. -/
theorem Extends.afterMark
    {mark : List Char}
    (hTail : Breaks tail)
    (hMark : mark.all isMarking = true)
    (h : Extends tail n scan longer) :
    Extends tail n (afterMark mark scan)
      (afterMark mark longer) :=
  (h.afterMark_add hTail hMark).mono (Nat.le_add_right n _)

/-
  A mark that begins with no separator does not begin where
  the text stops.
-/
theorem silent_afterMark
    {c : Char}
    {mark : List Char}
    (hc : c ∉ Grammar.separating) :
    Silent (afterMark (c :: mark) scan) := by
  intro text hStops
  cases text with
  | nil => rfl
  | cons d rest =>
      have hd : c ≠ d := by
        rintro rfl
        exact hc (hStops c rfl)
      simp [afterMark, hd]

/-
  A mark that is not in the text does not come with the
  tail, for the tail begins on a new line.
-/
theorem Extends.unlessMark
    {mark : List Char}
    (hTail : Breaks tail)
    (hMark : mark.all isMarking = true)
    (h : Extends tail n scan longer) :
    Extends tail n (unlessMark mark scan)
      (unlessMark mark longer) := by
  constructor
  · intro text a rest hRead
    simp only [Scanner.unlessMark] at hRead
    split at hRead
    · cases hRead
    · exact h.passes hRead
  · intro text hWhole hLength
    simp only [Scanner.unlessMark, Option.isSome_map,
      strip?_breaks hTail (newline_not_mem hMark)]
    split
    · rfl
    · exact h.append hWhole hLength

/- Either branch is taken with the tail as without it. -/
theorem Extends.ifMark
    {mark : List Char}
    {other other' : Scanner α}
    (hTail : Breaks tail)
    (hMark : mark.all isMarking = true)
    (h : Extends tail n scan longer)
    (hOther : Extends tail n other other') :
    Extends tail n (ifMark mark scan other)
      (ifMark mark longer other') := by
  constructor
  · intro text a rest hRead
    simp only [Scanner.ifMark] at hRead
    split at hRead
    · rename_i body hStrip
      exact (passes_of_strip? hMark hStrip).trans
        (h.passes hRead)
    · exact hOther.passes hRead
  · intro text hWhole hLength
    simp only [Scanner.ifMark,
      strip?_breaks hTail (newline_not_mem hMark)]
    cases hStrip : strip? mark text with
    | none => exact hOther.append hWhole hLength
    | some rest =>
        have hPasses := passes_of_strip? hMark hStrip
        have hMore := Nat.lt_of_le_of_lt hPasses.length_le hLength
        exact h.append (hPasses.whole hWhole) hMore

/- The second scanner is tried on the same text. -/
theorem Extends.either
    {second second' : Scanner α}
    (hFirst : Extends tail n scan longer)
    (hSecond : Extends tail n second second') :
    Extends tail n (either scan second)
      (either longer second') := by
  constructor
  · intro text a rest h
    rw [Scanner.either] at h
    split at h
    · rename_i found hRead
      cases h
      exact hFirst.passes hRead
    · exact hSecond.passes h
  · intro text hWhole hLength
    simp only [Scanner.either, hFirst.append hWhole hLength]
    cases scan text with
    | none => exact hSecond.append hWhole hLength
    | some found => rfl

/- Skipping leaves a whole text, and no longer one. -/
theorem Extends.skipping
    {skip : List Char → List Char}
    (hSkip : Skips tail skip)
    (h : Extends tail n scan longer) :
    Extends tail n (skipping skip scan)
      (skipping skip longer) := by
  constructor
  · intro text a rest hRead
    exact (hSkip.passes text).trans (h.passes hRead)
  · intro text hWhole hLength
    have hPasses := hSkip.passes text
    have hMore := Nat.lt_of_le_of_lt hPasses.length_le hLength
    simp only [Scanner.skipping, hSkip.append hWhole]
    exact h.append (hPasses.whole hWhole) hMore

/-
  The blanks after the text may go on in what follows it, but
  nothing is read there.
-/
theorem ExtendsItem.skippingBlanks
    (hTail : Breaks tail)
    (h : ExtendsItem tail n scan longer) :
    Extends tail n (skipping blanks scan)
      (skipping blanks longer) := by
  constructor
  · intro text a rest hRead
    exact (passes_blanks text).trans (h.passes hRead)
  · intro text hWhole hLength
    have hPasses := passes_blanks text
    have hMore := Nat.lt_of_le_of_lt hPasses.length_le hLength
    simp only [skipping, blanks_breaks hTail hWhole]
    split
    · rename_i hNil
      rw [hNil, h.silent stops_nil, h.silent' hTail.stops]
      rfl
    · exact h.append (hPasses.whole hWhole) hMore

theorem skips_inlineBlanks
    (hTail : Breaks tail) : Skips tail inlineBlanks :=
  ⟨passes_inlineBlanks, inlineBlanks_breaks hTail⟩

/-
  Reading ends where the scanner finds nothing or does not
  move on, with the tail as without it.
-/
theorem Extends.repeated
    (h : Extends tail n scan longer) :
    Extends tail n (repeated scan) (repeated longer) := by
  constructor
  · intro text as rest hRead
    simp only [Scanner.repeated, Option.some.injEq] at hRead
    fun_induction many scan text generalizing as with
    | case1 =>
        cases hRead
        exact .none _
    | case2 text a middle hFirst hShorter more last hMany ih =>
        cases hRead
        exact (h.passes hFirst).trans (ih hMany)
    | case3 =>
        cases hRead
        exact .none _
  · intro text hWhole hLength
    simp only [Scanner.repeated, carried_some, Option.some.injEq]
    fun_induction many scan text with
    | case1 text hNone =>
        refine many_of_none ?_
        rw [h.append hWhole hLength, hNone]
        rfl
    | case2 text a middle hFirst hShorter more last hMany ih =>
        have hPasses := h.passes hFirst
        have hRead := h.append hWhole hLength
        rw [hFirst, carried_some] at hRead
        have hMore := ih (hPasses.whole hWhole)
          (Nat.lt_of_le_of_lt hPasses.length_le hLength)
        rw [many_of_some hRead (by simpa using hShorter), hMore,
          hMany]
    | case3 text a middle hFirst hLonger =>
        rw [many, h.append hWhole hLength, hFirst]
        simp [hLonger]

theorem Extends.perhaps
    (h : Extends tail n scan longer) :
    Extends tail n (perhaps scan) (perhaps longer) := by
  constructor
  · intro text a rest hRead
    simp only [Scanner.perhaps, optionally,
      Option.some.injEq] at hRead
    split at hRead
    · rename_i b middle hFirst
      cases hRead
      exact h.passes hFirst
    · cases hRead
      exact .none _
  · intro text hWhole hLength
    simp only [Scanner.perhaps, optionally,
      h.append hWhole hLength]
    cases scan text with
    | none => rfl
    | some found => rfl

end Extending

------------------------------------------------------------
-- Names and literals
------------------------------------------------------------

/- Names and literals in terms of the combinations. -/
theorem hexadecimal_eq :
    hexadecimal =
      (let digits :=
        andThen (run isHexDigit) fun digits =>
          given (Text.hexadecimalValue? digits) fun value =>
            given (integer? value) fun n =>
              yield (.int n)
      ifMark ['0', 'x'] digits (afterMark ['0', 'X'] digits)) := by
  funext text
  rw [hexadecimal, ifMark]
  cases strip? ['0', 'x'] text with
  | none => rfl
  | some rest => rfl

theorem decimal_eq :
    decimal =
      andThen (run Char.isDigit) fun whole =>
        afterMark ['.']
          (andThen (run Char.isDigit) fun fraction =>
            yield (.float (Float.ofScientific
              (decimalValue (whole ++ fraction)) true
                fraction.length))) :=
  rfl

theorem integer_eq :
    integer =
      andThen (run Char.isDigit) fun digits =>
        given (integer? (decimalValue digits)) fun n =>
          yield (.int n) :=
  rfl

theorem symbol_eq :
    symbol =
      afterMark [':']
        (andThen identifier fun name => yield (.text name)) :=
  rfl

section Literals

variable {tail : List Char} {n : Nat}

/- A name ends with its line, if not before. -/
theorem extends_identifier
    (hTail : Breaks tail) :
    Extends tail n identifier identifier := by
  have hOutside : BeginsOutside isNameChar tail :=
    hTail.beginsOutside (by decide)
  constructor
  · intro text name rest h
    cases text with
    | nil => cases h
    | cons c text =>
        rw [identifier] at h
        split at h
        · rename_i hStart
          cases h
          exact .plain (not_enclosing (by decide) c hStart)
            (passes_dropWhile (not_enclosing (by decide)) text)
        · cases h
  · intro text hWhole hLength
    cases text with
    | nil =>
        exact identifier_eq_none (hTail.beginsOutside (by decide))
    | cons c text =>
        simp only [List.cons_append, identifier,
          dropWhile_breaks hOutside, takeWhile_breaks hOutside]
        split <;> rfl

/-
  So does a run of characters, if a new line is none of
  them.
-/
theorem extends_run
    {accepted : Char → Bool}
    (hTail : Breaks tail)
    (hLine : accepted '\n' = false)
    (hPlain : ∀ c, accepted c = true → c ∉ enclosing) :
    Extends tail n (run accepted) (run accepted) := by
  have hOutside : BeginsOutside accepted tail :=
    hTail.beginsOutside hLine
  constructor
  · intro text chars rest h
    rw [run] at h
    split at h
    · cases h
    · cases h
      exact passes_dropWhile hPlain text
  · intro text hWhole hLength
    simp only [run, dropWhile_breaks hOutside,
      takeWhile_breaks hOutside]
    split <;> rfl

theorem extends_hexadecimal
    (hTail : Breaks tail) :
    Extends tail n hexadecimal hexadecimal := by
  have hRun : Extends tail n (run isHexDigit) (run isHexDigit) :=
    extends_run hTail (by decide) (not_enclosing (by decide))
  have hDigits := hRun.andThen fun digits =>
    .given (Text.hexadecimalValue? digits) fun value =>
      .given (integer? value) fun n =>
        extends_yield (Literal.int n)
  rw [hexadecimal_eq]
  exact .ifMark hTail (by decide) hDigits
    (hDigits.afterMark hTail (by decide))

theorem extends_decimal
    (hTail : Breaks tail) :
    Extends tail n decimal decimal := by
  have hRun :
      Extends tail n (run Char.isDigit) (run Char.isDigit) :=
    extends_run hTail (by decide) (not_enclosing (by decide))
  rw [decimal_eq]
  refine hRun.andThen fun whole => ?_
  have hFraction := hRun.andThen fun fraction =>
    extends_yield (Literal.float (Float.ofScientific
      (decimalValue (whole ++ fraction)) true fraction.length))
  exact hFraction.afterMark hTail (by decide)

theorem extends_integer
    (hTail : Breaks tail) :
    Extends tail n integer integer := by
  have hRun :
      Extends tail n (run Char.isDigit) (run Char.isDigit) :=
    extends_run hTail (by decide) (not_enclosing (by decide))
  rw [integer_eq]
  exact hRun.andThen fun digits =>
    .given _ fun n => extends_yield (Literal.int n)

/- A string that begins in a whole text ends in it. -/
theorem extends_quotedBy
    {quote : Char}
    (hTail : Breaks tail)
    (hQuote : quote = '"' ∨ quote = '\'') :
    Extends tail n (quotedBy quote) (quotedBy quote) := by
  have hLine : '\n' ∉ [quote] := by
    rcases hQuote with rfl | rfl <;> decide
  constructor
  · intro text value rest h
    simp only [quotedBy, Option.bind_eq_bind,
      Option.bind_eq_some_iff, Prod.exists] at h
    rcases h with ⟨body, hMark, chars, after, hRead, h⟩
    cases h
    rw [strip?_eq_some_iff.mp hMark]
    exact .string hQuote hRead (.none _)
  · intro text hWhole hLength
    simp only [quotedBy, strip?_breaks hTail hLine]
    cases hMark : strip? [quote] text with
    | none => rfl
    | some body =>
        rw [strip?_eq_some_iff.mp hMark] at hWhole
        rcases Whole.of_quote hQuote hWhole with
          ⟨chars, after, hRead, -⟩
        have hRead : untilQuote quote body = some (chars, after) :=
          hRead
        simp [hRead, untilQuote_followed hRead]

theorem extends_symbol
    (hTail : Breaks tail) :
    Extends tail n symbol symbol := by
  have hName := (extends_identifier (n := n) hTail).andThen
    fun name => extends_yield (Literal.text name)
  rw [symbol_eq]
  exact hName.afterMark hTail (by decide)

/-
  All literals read the same; one that is quoted is whole by
  itself and may contain new lines.
-/
theorem extends_literal
    (hTail : Breaks tail) :
    Extends tail n literal literal := by
  have hQuoted : Extends tail n quoted quoted :=
    (extends_quotedBy hTail (.inl rfl)).either
      (extends_quotedBy hTail (.inr rfl))
  have hText := hQuoted.either (extends_symbol hTail)
  have hInteger := (extends_integer hTail).either hText
  have hDecimal := (extends_decimal hTail).either hInteger
  exact (extends_hexadecimal hTail).either hDecimal

end Literals

end Scanner

end MapStyle
