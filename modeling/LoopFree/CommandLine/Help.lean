/-
What the program says about its own command line.
-/
import LoopFree.CommandLine.Arguments

namespace LoopFree.CommandLine

/-- The ways to call the program. -/
def helpText : String :=
  "Interpreter for the simpl statement language\n\n" ++
  "Usage: simpl [OPTIONS] tokens PATH\n" ++
  "       simpl [OPTIONS] run [-w] [--legacy-subtraction] PATH\n\n" ++
  "Options:\n" ++
  "  --color WHEN            color diagnostics: auto, always or never\n" ++
  "  -v, --verbose           log more detail\n" ++
  "  -w, --watch             run again every time the file changes\n" ++
  "  --legacy-subtraction    evaluate a - b as a + b\n" ++
  "  -h, --help              print help\n" ++
  "  -V, --version           print version\n"

/-- What is wrong with a command line, in words. -/
def Usage.explanation : Usage → String
  | help | version | helpForNothing => ""
  | missingCommand => "a command is required: tokens or run"
  | unknownCommand => "there is no such command"
  | unknownArgument => "there is an unexpected argument"
  | missingValue => "a value is required and none is given"
  | rejectedValue => "the color choice must be auto, always or never"
  | repeatedOption => "an option is given more than once"
  | unwantedValue => "a value is given to an option that takes none"
  | missingPath => "a path is required"

/-- What to say when a command line leads to no command. -/
def Usage.text : Usage → String
  | version => versionLine
  | help | helpForNothing => helpText
  | wrong => "error: " ++ wrong.explanation ++ "\n\n" ++ helpText

end LoopFree.CommandLine
