import MapStyle.Decimal.Layout

/-
  This file defines reports of errors: what failed, and below
  it the causes from the outermost to the innermost.

  Key definitions include:
    * `ErrorReport`
    * `ErrorReport.text`
-/

namespace MapStyle

/- What failed, and why. -/
structure ErrorReport where
  title : String
  causes : List String
deriving DecidableEq

namespace ErrorReport

/- Blanks in a row. -/
def blanks (count : Nat) : List Char :=
  List.replicate count ' '

/- The number in front of a cause. -/
def numberText (index : Nat) : List Char :=
  let digits := Decimal.naturalText index
  blanks (5 - digits.length) ++ digits ++ [':', ' ']

/- Characters with blanks in front of every line but the first. -/
def indented
    (margin : Nat)
    (text : List Char) : List Char :=
  text.flatMap fun c =>
    if c = '\n' then c :: blanks margin else [c]

/- The lines of numbered causes. -/
def numbered (index : Nat) : List String → List Char
  | [] => []
  | cause :: rest =>
      '\n' :: numberText index ++ indented 7 cause.toList
        ++ numbered (index + 1) rest

/- The lines of causes; a single cause has no number. -/
def causeLines : List String → List Char
  | [] => []
  | [cause] => '\n' :: blanks 4 ++ indented 4 cause.toList
  | causes => numbered 0 causes

/- The text of a report. -/
def text (report : ErrorReport) : String :=
  let causes :=
    if report.causes.isEmpty then
      ""
    else
      "\n\nCaused by:"
        ++ String.ofList (causeLines report.causes)
  "Error: " ++ report.title ++ causes ++ "\n"

end ErrorReport

end MapStyle
