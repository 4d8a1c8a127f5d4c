/-
Files below a working directory.

A tree is its files, each with the names that lead to it; a directory is there when a file
is below it.  A path is followed name by name, so it may be of any length if only its names
are short enough.  Every step, also one that stays where it is, needs a directory to start
from.  To open a file its path is handed over as a whole, and then the whole has a greatest
length too.
-/
import LoopFree.Path
import LoopFree.Source

namespace LoopFree

/-- Why a path leads nowhere. -/
inductive PathError
  /-- A name on the way is not there, or there is no path at all. -/
  | notFound
  /-- A file stands where a directory is needed. -/
  | notADirectory
  /-- A name or the whole path is longer than a file system takes. -/
  | nameTooLong
  /-- The path has a character that no file name can have. -/
  | invalidName
  /-- The file system refuses for a reason of its own. -/
  | refused (why : String)
deriving Repr, DecidableEq

/-- The error in words. -/
def PathError.message : PathError → String
  | notFound => "No such file or directory (os error 2)"
  | notADirectory => "Not a directory (os error 20)"
  | nameTooLong => "File name too long (os error 36)"
  | invalidName => "file name contained an unexpected NUL byte"
  | refused why => why

/-- Files with the names that lead to them and their texts. -/
structure FileTree where
  files : List (List (List Char) × String)

/-- What a path leads to. -/
inductive Place
  /-- A directory of the tree, by the names that lead to it. -/
  | directory (names : List (List Char))
  /-- A file of the tree. -/
  | file (names : List (List Char)) (text : String)
  /-- A directory that is not below the working directory. -/
  | outside
deriving Repr, DecidableEq

namespace FileTree

/-- The tree of files named by relative paths. -/
def ofFiles (files : List (String × String)) : FileTree :=
  ⟨files.map fun (path, text) =>
    ((pathFields path.toList).filter fun f => !f.isEmpty && f != ['.'], text)⟩

/-- What stands in the tree under the given names. -/
def lookup (t : FileTree) (names : List (List Char)) : Option Place :=
  match t.files.find? fun f => f.1 = names with
  | some (_, text) => some (.file names text)
  | none => if t.files.any fun f => names.isPrefixOf f.1 then some (.directory names) else none

/-- The longest file name, in bytes. -/
def maxNameBytes : Nat := 255

/-- The longest path that a file can be opened by, in bytes. -/
def maxPathBytes : Nat := 4095

/-- One step of a path from a place. -/
def step (t : FileTree) (here : Place) (field : List Char) : Except PathError Place :=
  match here, field with
  | .file _ _, _ => .error .notADirectory
  | _, [] | _, ['.'] => .ok here
  | .directory names, ['.', '.'] =>
      .ok (if names.isEmpty then .outside else .directory names.dropLast)
  | .outside, ['.', '.'] => .ok .outside
  | _, field =>
      if maxNameBytes < (String.ofList field).utf8ByteSize then .error .nameTooLong
      else
        match here with
        | .directory names => (t.lookup (names ++ [field])).elim (.error .notFound) .ok
        | _ => .error .notFound

/-- Follows a path from the working directory. -/
def resolve (t : FileTree) (path : String) : Except PathError Place :=
  let chars := path.toList
  if chars.contains '\x00' then .error .invalidName
  else if chars.isEmpty then .error .notFound
  else
    match chars with
    | '/' :: rest => (pathFields rest).foldlM t.step .outside
    | _ => (pathFields chars).foldlM t.step (.directory [])

/-- The names that lead from the working directory to what a path stands for, with slashes
between them. -/
def canonicalPath (t : FileTree) (path : String) : Except PathError String := do
  match ← t.resolve path with
  | .directory names | .file names _ => return "/".intercalate (names.map String.ofList)
  | .outside => throw .notFound

/-- Opens a path as a source.  A directory can be opened but not read. -/
def openSource (t : FileTree) (path : String) : Except PathError Source :=
  if maxPathBytes < path.utf8ByteSize && !path.toList.contains '\x00' then .error .nameTooLong
  else do
    match ← t.resolve path with
    | .file _ text => return .ofString text
    | .directory _ | .outside => return .directory

end FileTree

end LoopFree
