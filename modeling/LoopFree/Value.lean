/-
The values that expressions have.

There are three kinds of value.  Values of different kinds are never equal, and floats
are compared as numbers: the zeros are equal and what is no number equals nothing.
-/
import LoopFree.Syntax.Printer

namespace LoopFree

/-- The kinds of value. -/
inductive ValueKind
  | integer | float | boolean
deriving Repr, DecidableEq

/-- The name of a kind, as messages show it. -/
def ValueKind.name : ValueKind → String
  | integer => "integer"
  | float => "float"
  | boolean => "boolean"

/-- What an expression has as its value and a variable holds. -/
inductive Value
  | int (n : Int64)
  | float (x : Float)
  | bool (b : Bool)
deriving DecidableEq, Inhabited

/-- Printed floats have a signed exponent of two digits at least, from `1e+16` up and
below `1e-4`. -/
def printedLayout : Layout where
  notANumber := "nan"
  infinity := "inf"
  leastPlain := -4
  greatestPlain := 15
  plus := "+"
  exponentWidth := 2

namespace Value

/-- The kind of a value. -/
def kind : Value → ValueKind
  | int _ => .integer
  | float _ => .float
  | bool _ => .boolean

/-- The text of a value, as it is printed. -/
def text : Value → String
  | int n => intText n
  | float x => printedLayout.text x
  | bool b => boolText b

/-- The values are of one kind and equal as numbers or booleans. -/
def same : Value → Value → Bool
  | int a, int b => a == b
  | float a, float b => a == b
  | bool a, bool b => a == b
  | _, _ => false

end Value

end LoopFree
