/-
What a command writes and how it ends.
-/
import LoopFree.CommandLine.Options
import LoopFree.FileTree
import LoopFree.Listing
import LoopFree.Run

namespace LoopFree.CommandLine

/-- What a command came to. -/
structure Report where
  /-- Zero if all went well. -/
  status : Nat
  stdout : ByteArray
  stderr : String

/-- The line that tells of an error, with its first word in bright red if there is colour. -/
def errorLine (colored : Bool) (message : String) : String :=
  (if colored then "\x1b[1;91merror:\x1b[0m" else "error:") ++ " " ++ message ++ "\n"

/-- The line that says a file is run again, with its first word in bright yellow if there is
colour. -/
def reloadLine (colored : Bool) (path : String) : String :=
  (if colored then "\x1b[93mReloading\x1b[0m" else "Reloading") ++ " " ++ path ++ "\n"

namespace Report

/-- A report of what was written, and of an error after that. -/
def ofOutput (colored : Bool) (stdout : ByteArray) : Option String → Report
  | none => ⟨0, stdout, ""⟩
  | some message => ⟨1, stdout, errorLine colored message⟩

end Report

/-- The path that a command works on. -/
def Command.path : Command → String
  | tokens p => p
  | run p _ _ => p

/-- Whether a command goes on after its first round, and watches its file. -/
def Command.watches : Command → Bool
  | run _ watch _ => watch
  | tokens _ => false

/-- Why the file of a command cannot be used. -/
def Command.cannotOpen (c : Command) (why : PathError) : String :=
  "failed to " ++ (if c.watches then "watch" else "open") ++ " " ++ c.path ++ ": " ++ why.message

/-- The source that a command works on.  What is watched is found before it is opened. -/
def Command.sourceIn (c : Command) (t : FileTree) : Except PathError Source := do
  if c.watches then
    let _ ← t.resolve c.path
  t.openSource c.path

/-- Carries out a command on what its path was found to be.  A run that is watched reports
its first round. -/
def Command.perform (c : Command) (colored : Bool) (found : Except PathError Source) : Report :=
  match found with
  | .error why => .ofOutput colored .empty (some (c.cannotOpen why))
  | .ok source =>
      match c with
      | tokens _ =>
          let (sink, failure) := source.writeTokens .unlimited
          .ofOutput colored sink.written (failure.map ListingFailure.message)
      | run _ _ _ =>
          let (sink, failure) := source.run c.config .unlimited
          .ofOutput colored sink.written (failure.map Failure.message)

end LoopFree.CommandLine
