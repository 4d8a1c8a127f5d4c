/-
What a command line asks for.
-/
import LoopFree.Eval

namespace LoopFree.CommandLine

/-- When the word `error:` is written in colour. -/
inductive ColorChoice
  /-- When the errors go to a terminal. -/
  | auto
  | always
  | never
deriving Repr, DecidableEq

namespace ColorChoice

/-- The choice as it is written. -/
def name : ColorChoice → String
  | auto => "auto"
  | always => "always"
  | never => "never"

/-- Reads a choice.  Capital letters count as small ones. -/
def ofString? (s : String) : Option ColorChoice :=
  [auto, always, never].find? fun c => c.name.toList == s.toList.map Char.toLower

/-- Why a text is no choice. -/
def invalidMessage (s : String) : String :=
  "Invalid color choice: " ++ s ++ ". Must be 'auto', 'always', or 'never'"

/-- Whether there is colour, given whether the errors go to a terminal. -/
def enabled (terminal : Bool) : ColorChoice → Bool
  | auto => terminal
  | always => true
  | never => false

end ColorChoice

/-- How much is logged. -/
inductive LogLevel
  | warn | info | debug | trace
deriving Repr, DecidableEq

namespace LogLevel

/-- The name of a level. -/
def name : LogLevel → String
  | warn => "WARN"
  | info => "INFO"
  | debug => "DEBUG"
  | trace => "TRACE"

/-- The level for a number of requests for more; warnings only without one. -/
def ofVerbosity : Nat → LogLevel
  | 0 => warn
  | 1 => info
  | 2 => debug
  | _ => trace

end LogLevel

/-- What is to be done. -/
inductive Command
  /-- List the tokens of a file. -/
  | tokens (path : String)
  /-- Run the program in a file, perhaps again after every change of it. -/
  | run (path : String) (watch legacySubtraction : Bool)
deriving Repr, DecidableEq

/-- A command line that was understood. -/
structure Options where
  color : ColorChoice
  verbosity : Nat
  command : Command
deriving Repr, DecidableEq

/-- How much the options ask to be logged. -/
def Options.logLevel (o : Options) : LogLevel :=
  .ofVerbosity o.verbosity

/-- The options for evaluation that a command sets. -/
def Command.config : Command → Config
  | run _ _ true => Config.default.withLegacySubtraction
  | _ => .default

end LoopFree.CommandLine
