import MapStyle.Json
import MapStyle.Text.Hexadecimal

/-
  This file writes JSON trees as text, on one line or
  indented.

  Key definitions include:
    * `Json.quoted`
    * `Json.compactChars`
    * `Json.prettyChars`
    * `Json.compact`
    * `Json.pretty`
-/

namespace MapStyle

namespace Json

------------------------------------------------------------
-- Strings
------------------------------------------------------------

/-
  A character inside quotes. Quotes, backslashes and control
  characters are escaped and nothing else.
-/
def escaped (c : Char) : List Char :=
  if c = '"' then
    ['\\', '"']
  else if c = '\\' then
    ['\\', '\\']
  else if c = '\n' then
    ['\\', 'n']
  else if c = '\r' then
    ['\\', 'r']
  else if c = '\t' then
    ['\\', 't']
  else if c.toNat = 8 then
    ['\\', 'b']
  else if c.toNat = 12 then
    ['\\', 'f']
  else if c.toNat < 32 then
    ['\\', 'u', '0', '0',
      Text.hexDigit (c.toNat / 16), Text.hexDigit (c.toNat % 16)]
  else
    [c]

/- A string between quotes. -/
def quoted (s : String) : List Char :=
  '"' :: (s.toList.flatMap escaped ++ ['"'])

------------------------------------------------------------
-- One line
------------------------------------------------------------

mutual

/- The text of a tree without any blank. -/
def compactChars : Json → List Char
  | .null => ['n', 'u', 'l', 'l']
  | .bool true => ['t', 'r', 'u', 'e']
  | .bool false => ['f', 'a', 'l', 's', 'e']
  | .number n => n.text
  | .text s => quoted s
  | .array items => '[' :: (compactItems items ++ [']'])
  | .object members =>
      '\x7b' :: (compactMembers members ++ ['\x7d'])

/- Items with commas between them. -/
def compactItems : List Json → List Char
  | [] => []
  | [item] => compactChars item
  | item :: rest =>
      compactChars item ++ ',' :: compactItems rest

/- Members with commas between them. -/
def compactMembers : List (String × Json) → List Char
  | [] => []
  | [(name, value)] => quoted name ++ ':' :: compactChars value
  | (name, value) :: rest =>
      quoted name ++ ':' :: compactChars value
        ++ ',' :: compactMembers rest

end

/- The text of a tree on one line. -/
def compact (json : Json) : String :=
  String.ofList json.compactChars

------------------------------------------------------------
-- Indented
------------------------------------------------------------

/- A new line that is indented by two blanks for each level. -/
def newline (level : Nat) : List Char :=
  '\n' :: List.replicate (2 * level) ' '

mutual

/-
  The text of a tree with every item and member on a line of
  its own. Empty containers stay closed.
-/
def prettyChars (level : Nat) : Json → List Char
  | .array (item :: rest) =>
      '[' :: (prettyItems (level + 1) (item :: rest)
        ++ newline level ++ [']'])
  | .object (member :: rest) =>
      '\x7b' :: (prettyMembers (level + 1) (member :: rest)
        ++ newline level ++ ['\x7d'])
  | .array [] => ['[', ']']
  | .object [] => ['\x7b', '\x7d']
  | .null => ['n', 'u', 'l', 'l']
  | .bool true => ['t', 'r', 'u', 'e']
  | .bool false => ['f', 'a', 'l', 's', 'e']
  | .number n => n.text
  | .text s => quoted s

/- Items, each on its own line. -/
def prettyItems (level : Nat) : List Json → List Char
  | [] => []
  | [item] => newline level ++ prettyChars level item
  | item :: rest =>
      newline level ++ prettyChars level item
        ++ ',' :: prettyItems level rest

/- Members, each on its own line. -/
def prettyMembers
    (level : Nat) : List (String × Json) → List Char
  | [] => []
  | [(name, value)] =>
      newline level ++ quoted name
        ++ ':' :: ' ' :: prettyChars level value
  | (name, value) :: rest =>
      newline level ++ quoted name
        ++ ':' :: ' ' :: prettyChars level value
        ++ ',' :: prettyMembers level rest

end

/- The indented text of a tree. -/
def pretty (json : Json) : String :=
  String.ofList (json.prettyChars 0)

end Json

end MapStyle
