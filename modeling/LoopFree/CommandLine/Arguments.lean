/-
Reading the arguments of a command line.

    [--color WHEN] [-v]... tokens PATH
    [--color WHEN] [-v]... run [-w] [--legacy-subtraction] PATH

The options for colour and verbosity may stand before the command and after it; what
stands after it wins.  An option's value may be joined to it with `=`.  Short options may
share a dash.  After `--` nothing is an option, and nothing names a command.

A value that is an argument of its own is checked late: when the next option or path is
met, or when the arguments of its level end, and there only after the command that
follows.  So of two faults it is not always the first that is reported.
-/
import LoopFree.CommandLine.Options

namespace LoopFree.CommandLine

/-- Why a command line leads to no command. -/
inductive Usage
  /-- Help was asked for. -/
  | help
  /-- The version was asked for. -/
  | version
  /-- There are no arguments, which is answered with help. -/
  | helpForNothing
  | missingCommand
  | unknownCommand
  | unknownArgument
  /-- An option without its value, or an empty path. -/
  | missingValue
  /-- A value that its option does not take. -/
  | rejectedValue
  /-- An option that may stand once stands twice. -/
  | repeatedOption
  /-- A value joined to an option that takes none. -/
  | unwantedValue
  | missingPath
deriving Repr, DecidableEq

/-- Help and the version are what was asked for; everything else is an error. -/
def Usage.status : Usage → Nat
  | help | version => 0
  | _ => 2

/-- The name and the version of the program, as `--version` shows them. -/
def versionLine : String := "simpl 0.1.0\n"

/-- Where on the command line an argument stands. -/
inductive Level
  /-- Before the command. -/
  | top
  /-- After `tokens`. -/
  | tokens
  /-- After `run`. -/
  | run
deriving Repr, DecidableEq

/-- What an option with a known name is. -/
inductive OptionName
  | color | verbose | watch | legacySubtraction | help | version
deriving Repr, DecidableEq

/-- The options that a level has under long names. -/
def longOption? (level : Level) (name : String) : Option OptionName :=
  match name, level with
  | "color", _ => some .color
  | "verbose", _ => some .verbose
  | "help", _ => some .help
  | "version", .top => some .version
  | "watch", .run => some .watch
  | "legacy-subtraction", .run => some .legacySubtraction
  | _, _ => none

/-- The options that a level has under letters. -/
def shortOption? (level : Level) (letter : Char) : Option OptionName :=
  match letter, level with
  | 'v', _ => some .verbose
  | 'h', _ => some .help
  | 'V', .top => some .version
  | 'w', .run => some .watch
  | _, _ => none

/-- A value that has been met and not checked. -/
inductive Pending
  | none
  /-- The value of `--color`, once it has been met. -/
  | color (value : Option String)
  | path (value : String)
deriving Repr, DecidableEq

/-- What the arguments of one level have come to so far. -/
structure Given where
  color : Option ColorChoice
  /-- How often more logging was asked for. -/
  verbosity : Nat
  watch : Bool
  legacySubtraction : Bool
  path : Option String
  pending : Pending
  /-- `--` has been met. -/
  onlyPaths : Bool
deriving Repr, DecidableEq

namespace Given

/-- Nothing has been met. -/
def nothing : Given :=
  ⟨none, 0, false, false, none, .none, false⟩

/-- The greatest number of requests for more logging that is counted. -/
def maxVerbosity : Nat := 255

/-- Sets the colour, which may be done once. -/
def setColor (g : Given) (value : String) : Except Usage Given :=
  match g.color, ColorChoice.ofString? value with
  | some _, _ => .error .repeatedOption
  | none, some c => .ok { g with color := c }
  | none, none => .error .rejectedValue

/-- Checks the value that has not been checked. -/
def settle (g : Given) : Except Usage Given :=
  let settled := { g with pending := .none }
  match g.pending with
  | .none => .ok settled
  | .color none => .error .missingValue
  | .color (some value) => settled.setColor value
  | .path "" => .error .missingValue
  | .path p => .ok { settled with path := p }

/-- The next argument is the value of an option. -/
def awaitsValue (g : Given) : Bool :=
  !g.onlyPaths && g.pending == .color none

/-- The level has its path. -/
def hasPath (g : Given) : Bool :=
  match g.pending with
  | .path _ => true
  | _ => g.path.isSome

/-- Takes an option that has no value. -/
def takeFlag (g : Given) : OptionName → Except Usage Given
  | .color => .ok { g with pending := .color none }
  | .verbose => .ok { g with verbosity := min (g.verbosity + 1) maxVerbosity }
  | .watch => if g.watch then .error .repeatedOption else .ok { g with watch := true }
  | .legacySubtraction =>
      if g.legacySubtraction then .error .repeatedOption
      else .ok { g with legacySubtraction := true }
  | .help => .error .help
  | .version => .error .version

/-- Takes an option with a long name, and the value joined to it. -/
def takeLong (g : Given) (level : Level) (name : String) (value : Option String) :
    Except Usage Given :=
  match longOption? level name, value with
  | none, _ => .error .unknownArgument
  | some .color, some v => do (← g.settle).setColor v
  | some _, some _ => .error .unwantedValue
  | some o, none => do (← g.settle).takeFlag o

/-- Takes options that share a dash. -/
def takeShort (level : Level) : List Char → Given → Except Usage Given
  | [], g => .ok g
  | c :: rest, g =>
      match shortOption? level c with
      | none => .error .unknownArgument
      | some o => do takeShort level rest (← (← g.settle).takeFlag o)

/-- Takes an argument that is no option.  Before the command there is no place for one. -/
def takePath (g : Given) (level : Level) (arg : String) : Except Usage Given :=
  match level with
  | .top =>
      if g.onlyPaths && ["tokens", "run", "help"].contains arg then .error .unknownArgument
      else .error .unknownCommand
  | .tokens | .run =>
      if g.hasPath then .error .unknownArgument
      else do return { ← g.settle with pending := .path arg }

/-- Takes the next argument of a level. -/
def take (g : Given) (level : Level) (arg : String) : Except Usage Given :=
  if g.onlyPaths then g.takePath level arg
  else
    match arg.toList with
    | ['-', '-'] => .ok { g with onlyPaths := true }
    | '-' :: '-' :: option =>
        let name := String.ofList (option.takeWhile (· != '='))
        let value := (option.dropWhile (· != '=')).tail?.map String.ofList
        g.takeLong level name value
    | '-' :: letter :: letters => takeShort level (letter :: letters) g
    | _ =>
        if g.awaitsValue then .ok { g with pending := .color (some arg) }
        else g.takePath level arg

/-- Takes all arguments that are left. -/
def takeAll (g : Given) (level : Level) (args : List String) : Except Usage Given := do
  (← args.foldlM (fun g arg => g.take level arg) g).settle

end Given

/-- The command that the arguments after its name spell. -/
def commandAfter (args : List String) (level : Level) (make : Given → String → Command) :
    Except Usage (Given × Command) := do
  let g ← Given.nothing.takeAll level args
  match g.path with
  | some p => return (g, make g p)
  | none => throw .missingPath

/-- The answer to `help`, perhaps for a command.  No command has commands of its own. -/
def helpAfter : List String → Usage
  | [] => .help
  | [c] => if ["tokens", "run", "help"].contains c then .help else .unknownCommand
  | _ => .unknownCommand

/-- Puts together what stands before the command and after it. -/
def combine (before after : Given) (command : Command) : Options where
  color := (after.color <|> before.color).getD .auto
  verbosity := if after.verbosity = 0 then before.verbosity else after.verbosity
  command := command

/-- Reads the arguments from the top, up to the command and through it. -/
def readFrom (g : Given) : List String → Except Usage Options
  | [] => do
      let g ← g.settle
      if g.color.isNone && g.verbosity = 0 then throw .helpForNothing else throw .missingCommand
  | arg :: rest =>
      let follow (level : Level) (make : Given → String → Command) : Except Usage Options := do
        let (after, command) ← commandAfter rest level make
        return combine (← g.settle) after command
      if g.onlyPaths || g.awaitsValue then do readFrom (← g.take .top arg) rest
      else
        match arg with
        | "help" => .error (helpAfter rest)
        | "tokens" => follow .tokens fun _ p => .tokens p
        | "run" => follow .run fun after p => .run p after.watch after.legacySubtraction
        | _ => do readFrom (← g.take .top arg) rest

/-- Reads the arguments of a command line. -/
def readArguments (args : List String) : Except Usage Options :=
  readFrom .nothing args

end LoopFree.CommandLine
