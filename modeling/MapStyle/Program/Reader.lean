import MapStyle.Program.Grammar
import MapStyle.Program.Position
import MapStyle.Text.Blank

/-
  This file defines the reading of whole texts as programs
  and terms.

  Key definitions include:
    * `Program.read`
    * `Term.read`
-/

namespace MapStyle

/-
  Read a whole text as a program. A closing brace without an
  opening one is an error.
-/
def Program.read (source : String) : Except ParseError Program :=
  let text := source.toList
  match Grammar.statements text with
  | .ok (program, []) => .ok program
  | .ok (_, remaining) => .error (.located text remaining)
  | .error remaining => .error (.located text remaining)

namespace Term

/-
  Where a term that cannot be read is reported: after the mark
  of a range that it begins with, else at its front.
-/
def failure (text : List Char) : List Char :=
  match Scanner.strip? ['.', '.'] text with
  | some rest => Scanner.inlineBlanks rest
  | none => text

/-
  Read a whole text, without the blanks around it, as a term.
  Positions refer to the text without those blanks.
-/
def read (source : String) : Except ParseError Term :=
  let text := Text.trim source.toList
  match Grammar.term text with
  | some (term, remaining) =>
      if Text.allBlank remaining then
        .ok term
      else
        .error (.located text remaining)
  | none => .error (.located text (failure text))

end Term

end MapStyle
