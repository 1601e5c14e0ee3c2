import MapStyle.Text.Hexadecimal
import MapStyle.Text.Unseen

/-
  This file defines quoted texts, in which quotes, backslashes
  and unseen characters are escaped.

  Key definitions include:
    * `Text.escape`
    * `Text.quoted`
-/

namespace MapStyle

namespace Text

/- A character by its code. -/
def byCode (c : Char) : List Char :=
  '\\' :: 'u' :: '\x7b' :: (hexadecimal c.toNat ++ ['\x7d'])

/- A character as it is written between quotes. -/
def escape (c : Char) : List Char :=
  match c with
  | '"' => ['\\', '"']
  | '\\' => ['\\', '\\']
  | '\n' => ['\\', 'n']
  | '\r' => ['\\', 'r']
  | '\t' => ['\\', 't']
  | '\x00' => ['\\', '0']
  | c => if isUnseen c then byCode c else [c]

/- A text between quotes. -/
def quoted (text : List Char) : List Char :=
  '"' :: (text.flatMap escape ++ ['"'])

end Text

end MapStyle
