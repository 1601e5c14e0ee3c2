/-
  This file defines positions in texts and the errors of
  reading that are reported at them.

  Key definitions include:
    * `Position`
    * `Position.after`
    * `Unexpected`
    * `ParseError`
    * `ParseError.located`
    * `ParseError.message`
-/

namespace MapStyle

------------------------------------------------------------
-- Positions
------------------------------------------------------------

/-
  A position in a text: the bytes before it, its line, and
  its column in that line, the last two counted from one.
-/
structure Position where
  offset : Nat
  line : Nat
  column : Nat
deriving DecidableEq

namespace Position

/- The front of a text. -/
def start : Position :=
  ⟨0, 1, 1⟩

/- The position after one more character. -/
def step
    (p : Position)
    (c : Char) : Position :=
  if c = '\n' then
    ⟨p.offset + c.utf8Size, p.line + 1, 1⟩
  else
    ⟨p.offset + c.utf8Size, p.line, p.column + 1⟩

/- The position after a text. -/
def after (text : List Char) : Position :=
  text.foldl step start

end Position

------------------------------------------------------------
-- Errors
------------------------------------------------------------

/- What stands where reading cannot go on. -/
inductive Unexpected
  | endOfInput
  | endOfLine
  | character (c : Char)
deriving DecidableEq

namespace Unexpected

/- What stands at the front of a text. -/
def front : List Char → Unexpected
  | [] => .endOfInput
  | c :: _ =>
      if c = '\n' ∨ c = '\r' then .endOfLine else .character c

/- The wording of what stands there. -/
def message : Unexpected → String
  | .endOfInput => "unexpected end of input"
  | .endOfLine => "unexpected end of line"
  | .character c => "unexpected `" ++ String.ofList [c] ++ "`"

end Unexpected

/- A text that cannot be read, and the place where it fails. -/
structure ParseError where
  found : Unexpected
  position : Position
deriving DecidableEq

namespace ParseError

/- The error of reading a text up to what remains of it. -/
def located
    (text remaining : List Char) : ParseError where
  found := Unexpected.front remaining
  position :=
    Position.after (text.take (text.length - remaining.length))

/- The wording of an error with its position. -/
def message (e : ParseError) : String :=
  e.found.message
    ++ " (line " ++ toString e.position.line
    ++ ", column " ++ toString e.position.column
    ++ ", offset " ++ toString e.position.offset ++ ")"

end ParseError

end MapStyle
