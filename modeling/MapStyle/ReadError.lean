/-
  This file defines the reasons for which a text or file
  cannot be read or written.

  Key definitions include:
    * `ReadError`
    * `ReadError.message`
    * `Texts`
    * `Texts.ofList`
-/

namespace MapStyle

/-
  Why a file cannot be read or written. A text that has not
  been asked for yet is pending, under the path by which it
  can be found.
-/
inductive ReadError
  | notFound
  | notDirectory
  | isDirectory
  | notText
  | invalidPath
  | nameTooLong
  | unlisted
  | pending (path : String)
  | other (message : String)
deriving DecidableEq

/- The wording of a reason. -/
def ReadError.message : ReadError → String
  | .notFound => "No such file or directory (os error 2)"
  | .notDirectory => "Not a directory (os error 20)"
  | .isDirectory => "Is a directory (os error 21)"
  | .notText => "stream did not contain valid UTF-8"
  | .invalidPath =>
      "file name contained an unexpected NUL byte"
  | .nameTooLong => "File name too long (os error 36)"
  | .unlisted => "no such file"
  | .pending path => "not read yet: " ++ path
  | .other message => message

/- Texts by their names. -/
abbrev Texts :=
  String → Except ReadError String

/- The texts of a list, which holds all that there are. -/
def Texts.ofList (texts : List (String × String)) : Texts :=
  fun name =>
    match texts.lookup name with
    | some text => .ok text
    | none => .error .unlisted

end MapStyle
