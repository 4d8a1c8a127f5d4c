/-
The program: reads the command line, opens the file and writes what the command reports.

A file that is watched is read again twenty times a second, and run again when what happened
to it since then concerns it.
-/
import LoopFree.CommandLine.Help
import LoopFree.CommandLine.Report
import LoopFree.Watch

namespace LoopFree.CommandLine

/-- What the file system had to say about a path. -/
def pathErrorOf : IO.Error → PathError
  | .noFileOrDirectory .. => .notFound
  | .inappropriateType .. => .notADirectory
  | e => .refused (toString e)

/-- The bytes of a file, or nothing where the path leads to a directory. -/
def readBytes (path : String) : IO (Except PathError (Option ByteArray)) := do
  match ← (IO.FS.Handle.mk path .read).toBaseIO with
  | .error e => return .error (pathErrorOf e)
  | .ok file =>
      match ← file.readBinToEnd.toBaseIO with
      | .ok bytes => return .ok (some bytes)
      | .error _ => return .ok none

/-- The source that the bytes of a file are. -/
def sourceOf : Option ByteArray → Source
  | some bytes => .ofBytes bytes.toList
  | none => .directory

/-- Carries out a command once and returns its status. -/
def once (c : Command) (colored : Bool) (found : Except PathError (Option ByteArray)) :
    IO UInt32 := do
  let report := c.perform colored (found.map sourceOf)
  let stdout ← IO.getStdout
  stdout.write report.stdout
  stdout.flush
  IO.eprint report.stderr
  return UInt32.ofNat report.status

/-- Waits for the bytes of a file to change and carries out the command again, for ever. -/
partial def again (c : Command) (colored : Bool) (last : Option ByteArray) : IO UInt32 := do
  IO.sleep 50
  match ← readBytes c.path with
  | .error _ => again c colored last
  | .ok now =>
      let event := ChangeEvent.between c.path (last.map (·.toList)) (now.map (·.toList))
      if event.concerns c.path then
        IO.eprint (reloadLine colored c.path)
        discard <| once c colored (.ok now)
        again c colored now
      else again c colored last

/-- Does what the command line says and returns the status. -/
def program (args : List String) : IO UInt32 := do
  match readArguments args with
  | .error usage =>
      if usage.status = 0 then IO.print usage.text else IO.eprint usage.text
      return UInt32.ofNat usage.status
  | .ok options =>
      let c := options.command
      let colored := options.color.enabled (← (← IO.getStderr).isTty)
      let found ← readBytes c.path
      let status ← once c colored found
      match found with
      | .ok bytes => if c.watches then again c colored bytes else return status
      | .error _ => return status

end LoopFree.CommandLine

def main (args : List String) : IO UInt32 :=
  LoopFree.CommandLine.program args
