import MapStyle.Program.Scanner

/-
  This file defines the grammar of terms and statements. Each
  level of terms reads the next tighter one; only brackets
  lead back to a whole term, which the levels take as an
  argument. A bound on the nesting of brackets makes the
  grammar total; a text has fewer brackets than characters.

  Key definitions include:
    * `Grammar.termWithin`
    * `Grammar.statementsWithin`
    * `Grammar.term`
    * `Grammar.statements`
-/

namespace MapStyle

namespace Grammar

open Scanner

------------------------------------------------------------
-- Lists
------------------------------------------------------------

/- A further item after a comma, possibly on a new line. -/
def afterComma
    {α : Type}
    (item : Scanner α) : Scanner α :=
  fun text => do
    let rest ← strip? [','] (inlineBlanks text)
    item (blanks rest)

/- Skip a comma that ends a list. -/
def trailingComma (text : List Char) : List Char :=
  match strip? [','] (inlineBlanks text) with
  | some rest => rest
  | none => text

/- At least one item, with commas between and perhaps after. -/
def listed
    {α : Type}
    (item : Scanner α) : Scanner (List α) :=
  fun text => do
    let (first, rest) ← item text
    let (more, rest) := many (afterComma item) rest
    pure (first :: more, trailingComma rest)

/- Something between brackets, which may stand on new lines. -/
def bracketed
    {α : Type}
    (opening closing : Char)
    (inner : Scanner α) : Scanner α :=
  fun text => do
    let rest ← strip? [opening] text
    let (a, rest) ← inner (blanks rest)
    let rest ← strip? [closing] (blanks rest)
    pure (a, rest)

/- A list that may be empty. -/
def listedOrEmpty
    {α : Type}
    (item : Scanner α) : Scanner (List α) :=
  fun text =>
    match optionally (listed item) text with
    | (some items, rest) => some (items, rest)
    | (none, rest) => some ([], rest)

------------------------------------------------------------
-- Arguments
------------------------------------------------------------

/- An argument with a keyword; a second colon is none. -/
def keywordArgument (whole : Scanner Term) : Scanner Argument :=
  fun text => do
    let (name, rest) ← identifier text
    let rest ← strip? [':'] rest
    if (strip? [':'] rest).isSome then
      none
    else
      let (value, rest) ← whole (blanks rest)
      pure (.keyword name value, rest)

/- An argument without a keyword. -/
def positionalArgument
    (whole : Scanner Term) : Scanner Argument :=
  fun text => do
    let (value, rest) ← whole text
    pure (.positional value, rest)

/- An argument. -/
def argument (whole : Scanner Term) : Scanner Argument :=
  either (keywordArgument whole) (positionalArgument whole)

/- Arguments in parentheses. -/
def parenthesized
    (whole : Scanner Term) : Scanner (List Argument) :=
  bracketed '(' ')' (listedOrEmpty (argument whole))

------------------------------------------------------------
-- Primary terms
------------------------------------------------------------

/- A whole term in parentheses. -/
def group (whole : Scanner Term) : Scanner Term :=
  bracketed '(' ')' whole

/- A list. -/
def listTerm (whole : Scanner Term) : Scanner Term :=
  fun text => do
    let (items, rest) ←
      bracketed '[' ']' (listedOrEmpty whole) text
    pure (.list items, rest)

/- A literal as a term. -/
def literalTerm : Scanner Term :=
  fun text => do
    let (value, rest) ← literal text
    pure (.literal value, rest)

/- A name that stands alone; three of them are literals. -/
def bareName (name : String) : Term :=
  if name = "true" then
    .literal (.bool true)
  else if name = "false" then
    .literal (.bool false)
  else if name = "nil" then
    .literal .null
  else
    .ident name

/- A call, or a name that stands alone. -/
def nameOrCall (whole : Scanner Term) : Scanner Term :=
  fun text => do
    let (name, rest) ← identifier text
    match optionally (parenthesized whole) rest with
    | (some args, rest) => pure (.call name args, rest)
    | (none, rest) => pure (bareName name, rest)

/- A term that no operator belongs to. -/
def primary (whole : Scanner Term) : Scanner Term :=
  either (group whole)
    (either (listTerm whole)
      (either literalTerm (nameOrCall whole)))

------------------------------------------------------------
-- Operators after a term
------------------------------------------------------------

/- What may follow a term directly. -/
inductive Suffix
  | method (name : String) (args : List Argument)
  | index (items : List Term)

/- A term with what follows it. -/
def Suffix.attach (subject : Term) : Suffix → Term
  | .method name args => .method subject name args
  | .index items => .index subject items

/- A method; its arguments may be left out. -/
def methodSuffix (whole : Scanner Term) : Scanner Suffix :=
  fun text => do
    let rest ← strip? ['.'] text
    let (name, rest) ← identifier rest
    match optionally (parenthesized whole) rest with
    | (some args, rest) => pure (.method name args, rest)
    | (none, rest) => pure (.method name [], rest)

/- An index of at least one item. -/
def indexSuffix (whole : Scanner Term) : Scanner Suffix :=
  fun text => do
    let (items, rest) ← bracketed '[' ']' (listed whole) text
    pure (.index items, rest)

/- A primary term with all that follows it. -/
def suffixedTerm (whole : Scanner Term) : Scanner Term :=
  fun text => do
    let (subject, rest) ← primary whole text
    let (suffixes, rest) :=
      many (either (methodSuffix whole) (indexSuffix whole)) rest
    pure (suffixes.foldl Suffix.attach subject, rest)

------------------------------------------------------------
-- Operators before a term
------------------------------------------------------------

/- A sign and the blanks after it. -/
def sign : Scanner UnaryOp
  | '-' :: rest => some (.neg, inlineBlanks rest)
  | '!' :: rest => some (.not, inlineBlanks rest)
  | _ => none

/- A term with signs before it; the innermost comes last. -/
def unaryTerm (whole : Scanner Term) : Scanner Term :=
  fun text => do
    let (signs, rest) := many sign text
    let (operand, rest) ← suffixedTerm whole rest
    pure (signs.foldr Term.unary operand, rest)

------------------------------------------------------------
-- Operators between terms
------------------------------------------------------------

/-
  An operator and the operand after it. The operator stands
  on the line of what comes before it.
-/
def operation
    (operator : Scanner BinaryOp)
    (operand : Scanner Term) : Scanner (BinaryOp × Term) :=
  fun text => do
    let (op, rest) ← operator (inlineBlanks text)
    let (right, rest) ← operand (blanks rest)
    pure ((op, right), rest)

/- An operator by its mark. -/
def mark
    (text : List Char)
    (op : BinaryOp) : Scanner BinaryOp :=
  fun input => do
    let rest ← strip? text input
    pure (op, rest)

/- A term with an operator and operand on its right. -/
def Operation.attach
    (left : Term)
    (operation : BinaryOp × Term) : Term :=
  .binary left operation.1 operation.2

/- Operands with operators between them, grouped to the left. -/
def leftGrouped
    (operator : Scanner BinaryOp)
    (operand : Scanner Term) : Scanner Term :=
  fun text => do
    let (first, rest) ← operand text
    let (more, rest) := many (operation operator operand) rest
    pure (more.foldl Operation.attach first, rest)

/- Powers, grouped to the right. -/
def groupRight
    (first : Term) : List (BinaryOp × Term) → Term
  | [] => first
  | (op, next) :: more => .binary first op (groupRight next more)

/- Operands with operators between them, grouped to the right. -/
def rightGrouped
    (operator : Scanner BinaryOp)
    (operand : Scanner Term) : Scanner Term :=
  fun text => do
    let (first, rest) ← operand text
    let (more, rest) := many (operation operator operand) rest
    pure (groupRight first more, rest)

/- At most one operator between two operands. -/
def ungrouped
    (operator : Scanner BinaryOp)
    (operand : Scanner Term) : Scanner Term :=
  fun text => do
    let (left, rest) ← operand text
    match optionally (operation operator operand) rest with
    | (some more, rest) => pure (Operation.attach left more, rest)
    | (none, rest) => pure (left, rest)

/- Two stars. -/
def powMark : Scanner BinaryOp :=
  mark ['*', '*'] .pow

/- A star that is not one of two. -/
def starMark : Scanner BinaryOp :=
  fun text => do
    let rest ← strip? ['*'] text
    if (strip? ['*'] rest).isSome then
      none
    else
      pure (.mul, rest)

/- Multiplication, division and remainder. -/
def mulMark : Scanner BinaryOp :=
  either starMark (either (mark ['/'] .div) (mark ['%'] .mod))

/- Addition and subtraction. -/
def addMark : Scanner BinaryOp :=
  either (mark ['+'] .add) (mark ['-'] .sub)

/- Comparisons; the longer marks go first. -/
def compareMark : Scanner BinaryOp :=
  either (mark ['=', '='] .eq)
    (either (mark ['!', '='] .ne)
      (either (mark ['<', '='] .le)
        (either (mark ['>', '='] .ge)
          (either (mark ['<'] .lt) (mark ['>'] .gt)))))

/- Conjunction. -/
def andMark : Scanner BinaryOp :=
  mark ['&'] .and

/- Disjunction. -/
def orMark : Scanner BinaryOp :=
  mark ['|'] .or

/- All operators but that of ranges, tightest first. -/
def orTerm (whole : Scanner Term) : Scanner Term :=
  leftGrouped orMark
    (leftGrouped andMark
      (ungrouped compareMark
        (leftGrouped addMark
          (leftGrouped mulMark
            (rightGrouped powMark
              (unaryTerm whole))))))

------------------------------------------------------------
-- Ranges
------------------------------------------------------------

/- A bound after the mark of a range. -/
def bound (whole : Scanner Term) : Scanner Term :=
  fun text => orTerm whole (inlineBlanks text)

/-
  A term or a range. A range without a lower bound has an
  upper one.
-/
def rangeTerm (whole : Scanner Term) : Scanner Term :=
  fun text =>
    match strip? ['.', '.'] text with
    | some rest => do
        let (upper, rest) ← bound whole rest
        pure (.range none (some upper), rest)
    | none => do
        let (lower, rest) ← orTerm whole text
        match strip? ['.', '.'] (inlineBlanks rest) with
        | none => pure (lower, rest)
        | some after =>
            let (upper, rest) := optionally (bound whole) after
            pure (.range (some lower) upper, rest)

/- Terms with fewer brackets inside each other than a bound. -/
def termWithin : Nat → Scanner Term
  | 0 => fun _ => none
  | bound + 1 => rangeTerm (termWithin bound)

/- A term. -/
def term : Scanner Term :=
  fun text => termWithin (text.length + 1) text

------------------------------------------------------------
-- Statements
------------------------------------------------------------

/-
  The arguments of a statement: in parentheses right after
  the name, or after a blank.
-/
def statementArguments
    (whole : Scanner Term)
    (text : List Char) : List Argument × List Char :=
  match parenthesized whole text with
  | some (args, rest) => (args, rest)
  | none =>
      match text with
      | [] => ([], text)
      | c :: _ =>
          if isInlineBlank c then
            match
              listed (argument whole)
                (text.dropWhile isInlineBlank) with
            | some (args, rest) => (args, rest)
            | none => ([], text)
          else
            ([], text)

/- Whether the statements of a block or program end here. -/
def atBlockEnd : List Char → Bool
  | [] => true
  | c :: _ => c = '\x7d'

/- Whether a statement may end here. -/
def atStatementEnd : List Char → Bool
  | [] => true
  | c :: _ =>
      c = '\n' || c = '\r' || c = ';' || c = '\x7d'

/-
  Statements fail for good, with the text at which they fail.
-/
abbrev Statements :=
  List Char → Except (List Char) (List Statement × List Char)

/- A block; one that is not closed is no block. -/
def block
    (inner : Statements)
    (text : List Char) :
    Except (List Char)
      (Option (List Statement) × List Char) :=
  match strip? ['\x7b'] (inlineBlanks text) with
  | none => .ok (none, text)
  | some rest => do
      let (body, rest) ← inner rest
      match strip? ['\x7d'] rest with
      | some after => pure (some body, after)
      | none => pure (none, text)

/-
  Statements up to the end of the block or text that they
  stand in. A statement begins with a name, and nothing else
  may follow it in its line.
-/
def statementsWithin : Nat → Statements
  | 0 => fun text => .error text
  | bound + 1 => fun text =>
      let start := separators text
      if atBlockEnd start then
        .ok ([], start)
      else
        match identifier start with
        | none => .error start
        | some (name, rest) => do
            let (args, rest) :=
              statementArguments (termWithin bound) rest
            let (body, rest) ←
              block (statementsWithin bound) rest
            let ending := inlineBlanks rest
            if atStatementEnd ending then
              let (more, rest) ← statementsWithin bound ending
              pure (.mk name args body :: more, rest)
            else
              .error ending

/- The statements at the front of a text. -/
def statements : Statements :=
  fun text => statementsWithin (text.length + 1) text

end Grammar

end MapStyle
