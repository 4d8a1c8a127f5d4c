/-
File names that lead through directories.

Two paths are the same when their components are: slashes that follow each other count
once, a slash at the end does not count, and a dot counts only where a relative path
starts with it.  Nothing is looked up, so `..` stands for itself.
-/

namespace LoopFree

/-- A step of a path. -/
inductive PathComponent
  | root
  | current
  | parent
  | name (s : List Char)
deriving Repr, DecidableEq

/-- The parts of a text between its slashes. -/
def pathFields : List Char → List (List Char)
  | [] => [[]]
  | c :: rest =>
      if c = '/' then [] :: pathFields rest
      else
        match pathFields rest with
        | [] => [[c]]
        | field :: fields => (c :: field) :: fields

/-- The step that a part of a path stands for, if it is not the first one. -/
def PathComponent.ofField : List Char → Option PathComponent
  | [] | ['.'] => none
  | ['.', '.'] => some .parent
  | field => some (.name field)

/-- The components of a path. -/
def pathComponents (path : String) : List PathComponent :=
  match path.toList with
  | [] => []
  | '/' :: rest => .root :: (pathFields rest).filterMap PathComponent.ofField
  | chars =>
      let fields := pathFields chars
      let start := if fields.head? = some ['.'] then [.current] else []
      start ++ fields.filterMap PathComponent.ofField

/-- The paths are the same, component by component. -/
def samePath (p q : String) : Bool :=
  pathComponents p == pathComponents q

end LoopFree
