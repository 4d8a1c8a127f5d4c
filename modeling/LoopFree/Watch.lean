/-
Which changes on disk concern a watched file.

What is watched is the directory of the file, so events arrive for its neighbours too, and
for what does not touch the content.  A file that another one is renamed to has changed.  Where
nobody tells of events, two looks at the content of a file make one.
-/
import LoopFree.Path

namespace LoopFree

/-- What happened on disk. -/
inductive ChangeKind
  | create
  | createFolder
  | modify
  | modifyData
  | modifyMetadata
  | rename
  | access
  | remove
  /-- Something that was not told. -/
  | any
  /-- Something else. -/
  | other
deriving Repr, DecidableEq

/-- The content of what it happened to may be another one after it. -/
def ChangeKind.altersContent : ChangeKind → Bool
  | create | createFolder | modify | modifyData | modifyMetadata | rename => true
  | access | remove | any | other => false

/-- Something that happened, and the paths it happened to. -/
structure ChangeEvent where
  kind : ChangeKind
  paths : List String
deriving Repr, DecidableEq

/-- What happened to a file between two looks at its content, if there is any. -/
def ChangeEvent.between (path : String) (before after : Option (List UInt8)) : ChangeEvent :=
  ⟨if after = before then .access else .modifyData, [path]⟩

/-- The event may have changed the content of a file. -/
def ChangeEvent.concerns (e : ChangeEvent) (target : String) : Bool :=
  e.kind.altersContent && e.paths.any (samePath · target)

end LoopFree
