import MapStyle.Program.Term
import MapStyle.Text.Hexadecimal

/-
  This file defines the scanners of programs. What remains of
  the text is the whole state: a skipper returns the text
  after what it skips, and a scanner returns what it reads
  and the text after it, or nothing.

  Key definitions include:
    * `Scanner`
    * `Scanner.strip?`
    * `Scanner.inlineBlanks`
    * `Scanner.blanks`
    * `Scanner.separators`
    * `Scanner.many`
    * `Scanner.identifier`
    * `Scanner.literal`
-/

namespace MapStyle

/- A scanner reads something from the front of a text. -/
abbrev Scanner (α : Type) :=
  List Char → Option (α × List Char)

namespace Scanner

------------------------------------------------------------
-- Marks
------------------------------------------------------------

/- The text after a mark that stands at its front. -/
def strip? : List Char → List Char → Option (List Char)
  | [], text => some text
  | _ :: _, [] => none
  | m :: mark, c :: text =>
      if m = c then strip? mark text else none

/- What is read, or nothing without moving. -/
def optionally
    {α : Type}
    (scan : Scanner α)
    (text : List Char) : Option α × List Char :=
  match scan text with
  | some (a, rest) => (some a, rest)
  | none => (none, text)

/- The first of two scanners that reads something. -/
def either
    {α : Type}
    (first second : Scanner α) : Scanner α :=
  fun text =>
    match first text with
    | some result => some result
    | none => second text

/- Read as often as possible; each reading must move on. -/
def many
    {α : Type}
    (scan : Scanner α)
    (text : List Char) : List α × List Char :=
  match scan text with
  | none => ([], text)
  | some (a, rest) =>
      if rest.length < text.length then
        let (more, last) := many scan rest
        (a :: more, last)
      else
        ([], text)
termination_by text.length

------------------------------------------------------------
-- Blanks and comments
------------------------------------------------------------

/- Blanks within a line. -/
def isInlineBlank (c : Char) : Bool :=
  c = ' ' || c = '\t'

/- Blanks and the ends of lines. -/
def isLineBlank (c : Char) : Bool :=
  c = ' ' || c = '\t' || c = '\r' || c = '\n'

/-
  The text after a comment whose mark has been read. The end
  of the line is not part of it. A carriage return that ends
  no line makes it no comment.
-/
def afterComment? : List Char → Option (List Char)
  | [] => some []
  | '\n' :: rest => some ('\n' :: rest)
  | '\r' :: '\n' :: rest => some ('\r' :: '\n' :: rest)
  | '\r' :: _ => none
  | _ :: rest => afterComment? rest

theorem length_afterComment?
    {text rest : List Char}
    (h : afterComment? text = some rest) :
    rest.length ≤ text.length := by
  fun_induction afterComment? text with
  | case1 =>
      cases h
      exact Nat.le_refl _
  | case2 =>
      cases h
      exact Nat.le_refl _
  | case3 =>
      cases h
      exact Nat.le_refl _
  | case4 => cases h
  | case5 _ _ _ _ _ ih =>
      exact Nat.le_succ_of_le (ih h)

/- Skip a comment if one stands at the front. -/
def comment (text : List Char) : List Char :=
  match text with
  | '#' :: rest =>
      match afterComment? rest with
      | some after => after
      | none => text
  | _ => text

/- Skip blanks within a line and a comment after them. -/
def inlineBlanks (text : List Char) : List Char :=
  comment (text.dropWhile isInlineBlank)

/- Skip characters of a class and comments. -/
def skipWith
    (skipped : Char → Bool)
    (text : List Char) : List Char :=
  match text with
  | [] => []
  | c :: rest =>
      if skipped c then
        skipWith skipped rest
      else if c = '#' then
        match _h : afterComment? rest with
        | some after => skipWith skipped after
        | none => c :: rest
      else
        c :: rest
termination_by text.length
decreasing_by
  · exact Nat.lt_succ_self _
  · exact Nat.lt_succ_of_le (length_afterComment? _h)

/- Skip blanks, ends of lines and comments. -/
def blanks (text : List Char) : List Char :=
  skipWith isLineBlank text

/- Skip what may stand between statements. -/
def separators (text : List Char) : List Char :=
  skipWith (fun c => isLineBlank c || c = ';') text

------------------------------------------------------------
-- Names
------------------------------------------------------------

/- The characters that begin a name; ASCII letters only. -/
def isNameStart (c : Char) : Bool :=
  c.isAlpha || c = '_'

/- The characters that continue a name. -/
def isNameChar (c : Char) : Bool :=
  c.isAlphanum || c = '_'

/- A name. -/
def identifier : Scanner String
  | [] => none
  | c :: rest =>
      if isNameStart c then
        some (String.ofList (c :: rest.takeWhile isNameChar),
          rest.dropWhile isNameChar)
      else
        none

------------------------------------------------------------
-- Numbers
------------------------------------------------------------

/- A run of at least one character of a class. -/
def run (accepted : Char → Bool) : Scanner (List Char) :=
  fun text =>
    match text.takeWhile accepted with
    | [] => none
    | c :: chars =>
        some (c :: chars, text.dropWhile accepted)

/- The value of decimal digits. -/
def decimalValue (digits : List Char) : Nat :=
  digits.foldl
    (fun value c => value * 10 + (c.toNat - '0'.toNat)) 0

/- The integer of a natural, if it fits. -/
def integer? (n : Nat) : Option Int64 :=
  if n < 0x8000000000000000 then
    some (Int64.ofNat n)
  else
    none

/- Whether a character is a hexadecimal digit. -/
def isHexDigit (c : Char) : Bool :=
  (Text.hexDigitValue? c).isSome

/- A hexadecimal integer after its mark. -/
def hexadecimal : Scanner Literal :=
  fun text => do
    let rest ←
      match strip? ['0', 'x'] text with
      | some rest => some rest
      | none => strip? ['0', 'X'] text
    let (digits, rest) ← run isHexDigit rest
    let value ← Text.hexadecimalValue? digits
    let n ← integer? value
    pure (.int n, rest)

/- Digits on both sides of a point. -/
def decimal : Scanner Literal :=
  fun text => do
    let (whole, rest) ← run Char.isDigit text
    let rest ← strip? ['.'] rest
    let (fraction, rest) ← run Char.isDigit rest
    let value := decimalValue (whole ++ fraction)
    pure (.float (Float.ofScientific value true fraction.length),
      rest)

/- An integer. -/
def integer : Scanner Literal :=
  fun text => do
    let (digits, rest) ← run Char.isDigit text
    let n ← integer? (decimalValue digits)
    pure (.int n, rest)

------------------------------------------------------------
-- Strings
------------------------------------------------------------

/-
  The character that a letter stands for after a backslash;
  most stand for themselves.
-/
def unescaped (c : Char) : Char :=
  if c = 'n' then '\n'
  else if c = 't' then '\t'
  else if c = 'r' then '\r'
  else if c = '0' then '\x00'
  else c

/- The characters up to a closing quote, and the text after it. -/
def untilQuote (quote : Char) : Scanner (List Char)
  | [] => none
  | ['\\'] => none
  | '\\' :: c :: rest =>
      match untilQuote quote rest with
      | some (chars, after) => some (unescaped c :: chars, after)
      | none => none
  | c :: rest =>
      if c = quote then
        some ([], rest)
      else
        match untilQuote quote rest with
        | some (chars, after) => some (c :: chars, after)
        | none => none

/- A string in quotes of a kind. -/
def quotedBy (quote : Char) : Scanner Literal :=
  fun text => do
    let rest ← strip? [quote] text
    let (chars, rest) ← untilQuote quote rest
    pure (.text (String.ofList chars), rest)

/- A string in quotes of either kind. -/
def quoted : Scanner Literal :=
  either (quotedBy '"') (quotedBy '\'')

/- A name after a colon is a string. -/
def symbol : Scanner Literal :=
  fun text => do
    let rest ← strip? [':'] text
    let (name, rest) ← identifier rest
    pure (.text name, rest)

/- A number, string or symbol. -/
def literal : Scanner Literal :=
  either hexadecimal
    (either decimal
      (either integer
        (either quoted symbol)))

end Scanner

end MapStyle
