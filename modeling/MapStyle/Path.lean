/-
  This file defines paths of files: their parts between
  slashes, and the path of a file beside another one.

  Key definitions include:
    * `Path.parts`
    * `Path.directoryParts`
    * `Path.beside`
-/

namespace MapStyle

namespace Path

/- The parts of characters between slashes. -/
def split : List Char → List (List Char)
  | [] => [[]]
  | '/' :: rest => [] :: split rest
  | c :: rest =>
      match split rest with
      | part :: parts => (c :: part) :: parts
      | [] => [[c]]

/- The parts of a path between slashes. -/
def parts (path : String) : List String :=
  (split path.toList).map String.ofList

/- Whether a path starts at the root of all files. -/
def isAbsolute (path : String) : Bool :=
  path.toList.head? = some '/'

/- Whether a part of a path leads nowhere else. -/
def isStay (part : String) : Bool :=
  part = "" || part = "."

/-
  The parts of the directory of a file. At the end of the
  directory, parts that lead nowhere else are left out; the
  first part stays.
-/
def directoryParts (file : String) : List String :=
  match (parts file).dropLast with
  | [] => []
  | first :: rest =>
      first :: (rest.reverse.dropWhile isStay).reverse

/-
  A path as it is meant in the directory of a file: an absolute
  path stays as it is.
-/
def beside (file path : String) : String :=
  if isAbsolute path then
    path
  else
    "/".intercalate (directoryParts file ++ [path])

end Path

end MapStyle
