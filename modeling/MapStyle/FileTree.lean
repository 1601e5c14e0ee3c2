import MapStyle.Path
import MapStyle.ReadError

/-
  This file defines trees of files in memory, and how files
  are found, read, and written by their paths.

  Key definitions include:
    * `FileTree`
    * `Place`
    * `FileTree.enter`
    * `FileTree.find`
    * `FileTree.read`
    * `FileTree.write`
-/

namespace MapStyle

/-
  The contents of files under the names on the way to them. A
  directory is there if a file is somewhere in it.
-/
structure FileTree where
  files : List (List String × ByteArray)

/-
  Where a path leads: to names in the tree, to names from the
  root of the system around it, or to a directory around the
  tree, of which nothing more is known.
-/
inductive Place
  | within (names : List String)
  | system (names : List String)
  | around
deriving DecidableEq

namespace Place

/- The directories that every system has. -/
def systemDirectories : List (List String) :=
  [[], ["bin"], ["dev"], ["etc"], ["home"], ["lib"], ["mnt"],
   ["opt"], ["proc"], ["root"], ["run"], ["sbin"], ["srv"],
   ["sys"], ["tmp"], ["usr"], ["usr", "bin"], ["usr", "lib"],
   ["var"], ["var", "tmp"]]

/- The file that is always empty and keeps nothing. -/
def nullDevice : List String :=
  ["dev", "null"]

/- The place at which a path starts. -/
def start (path : String) : Place :=
  if Path.isAbsolute path then .system [] else .within []

/- The place around another one; the root is its own. -/
def parent : Place → Place
  | .within [] => .around
  | .within names => .within names.dropLast
  | .system names => .system names.dropLast
  | .around => .around

end Place

namespace FileTree

------------------------------------------------------------
-- Content
------------------------------------------------------------

/- The tree without files. -/
def empty : FileTree :=
  ⟨[]⟩

/- The content of the file under names. -/
def get?
    (tree : FileTree)
    (names : List String) : Option ByteArray :=
  tree.files.lookup names

/- Whether names are those of a directory. -/
def isDirectory
    (tree : FileTree)
    (names : List String) : Bool :=
  names.isEmpty
    || tree.files.any fun f =>
      names.isPrefixOf f.1 && names.length < f.1.length

/- Put a file under names, in place of the one that is there. -/
def put
    (tree : FileTree)
    (names : List String)
    (content : ByteArray) : FileTree :=
  ⟨(names, content) :: tree.files.filter fun f => f.1 ≠ names⟩

/- A file that has been put somewhere is found there. -/
theorem get?_put_self
    (tree : FileTree)
    (names : List String)
    (content : ByteArray) :
    (tree.put names content).get? names = some content := by
  simp [get?, put]

/- Every other file is as it was. -/
theorem get?_put_of_ne
    (tree : FileTree)
    {names others : List String}
    (content : ByteArray)
    (h : others ≠ names) :
    (tree.put names content).get? others = tree.get? others := by
  have skip :
      ∀ files : List (List String × ByteArray),
        (files.filter fun f => f.1 ≠ names).lookup others =
          files.lookup others := by
    intro files
    induction files with
    | nil => rfl
    | cons f rest ih =>
        by_cases hf : f.1 = names
        · have ho : (others == f.1) = false := by
            rw [hf]
            exact beq_false_of_ne h
          rw [List.filter_cons_of_neg (by simp [hf]), ih,
            List.lookup_cons, ho]
        · rw [List.filter_cons_of_pos (by simp [hf]),
            List.lookup_cons, List.lookup_cons, ih]
  have hn : (others == names) = false := beq_false_of_ne h
  simp only [get?, put, List.lookup_cons, hn]
  exact skip tree.files

------------------------------------------------------------
-- Walking
------------------------------------------------------------

/- Whether a place has entries. -/
def hasEntries (tree : FileTree) : Place → Bool
  | .within names => tree.isDirectory names
  | .system names => Place.systemDirectories.contains names
  | .around => true

/- The entry of a place with a name, if it is there. -/
def entry?
    (tree : FileTree)
    (place : Place)
    (name : String) : Option Place :=
  match place with
  | .within names =>
      let inner := names ++ [name]
      if (tree.get? inner).isSome || tree.isDirectory inner then
        some (.within inner)
      else
        none
  | .system names =>
      let inner := names ++ [name]
      if inner = Place.nullDevice
          ∨ Place.systemDirectories.contains inner then
        some (.system inner)
      else
        none
  | .around => none

/-
  Walk from a place into one of its entries. A dot is the place
  itself, and two dots are the place around it.
-/
def enter
    (tree : FileTree)
    (place : Place)
    (name : String) : Except ReadError Place :=
  if !tree.hasEntries place then
    .error .notDirectory
  else if name = "" ∨ name = "." then
    .ok place
  else if name = ".." then
    .ok place.parent
  else if name.utf8ByteSize > 255 then
    .error .nameTooLong
  else
    match tree.entry? place name with
    | some inner => .ok inner
    | none => .error .notFound

/- Walk along names. -/
def walk
    (tree : FileTree)
    (place : Place)
    (names : List String) : Except ReadError Place :=
  names.foldlM tree.enter place

/- Paths that no system takes are refused. -/
def checkPath (path : String) : Except ReadError Unit :=
  if path.toList.contains '\x00' then
    .error .invalidPath
  else if path.isEmpty then
    .error .notFound
  else if path.utf8ByteSize ≥ 4096 then
    .error .nameTooLong
  else
    .ok ()

/- The place to which a path leads. -/
def find
    (tree : FileTree)
    (path : String) : Except ReadError Place := do
  checkPath path
  tree.walk (Place.start path) (Path.parts path)

------------------------------------------------------------
-- Reading and writing
------------------------------------------------------------

/- The content of the file at a place. -/
def contentAt
    (tree : FileTree) : Place → Except ReadError ByteArray
  | .within names =>
      match tree.get? names with
      | some content => .ok content
      | none => .error .isDirectory
  | .system names =>
      if names = Place.nullDevice then
        .ok .empty
      else
        .error .isDirectory
  | .around => .error .isDirectory

/- The text of the file to which a path leads. -/
def read
    (tree : FileTree)
    (path : String) : Except ReadError String := do
  let place ← tree.find path
  let content ← tree.contentAt place
  match String.fromUTF8? content with
  | some text => pure text
  | none => .error .notText

/-
  Write a text at a place that has no entries. Only what is
  within the tree is kept.
-/
def writeAt
    (tree : FileTree)
    (place : Place)
    (text : String) : Except ReadError FileTree :=
  if tree.hasEntries place then
    .error .isDirectory
  else
    match place with
    | .within names => .ok (tree.put names text.toUTF8)
    | _ => .ok tree

/-
  Write a text to the entry of a place with a name; it is made
  if it is not there.
-/
def writeEntry
    (tree : FileTree)
    (place : Place)
    (name text : String) : Except ReadError FileTree :=
  match tree.enter place name with
  | .ok inner => tree.writeAt inner text
  | .error .notFound =>
      match place with
      | .within names =>
          .ok (tree.put (names ++ [name]) text.toUTF8)
      | _ => .ok tree
  | .error e => .error e

/-
  Write a text to the file to which a path leads. Its
  directory has to be there, and a path with a slash at its
  end is that of a directory.
-/
def write
    (tree : FileTree)
    (path text : String) : Except ReadError FileTree := do
  checkPath path
  let parts := (Path.parts path).reverse
  match parts.dropWhile String.isEmpty with
  | [] => .error .isDirectory
  | name :: above =>
      let place ← tree.walk (Place.start path) above.reverse
      if parts.head? = some "" then
        discard (tree.enter place ".")
        .error .isDirectory
      else
        tree.writeEntry place name text

end FileTree

end MapStyle
