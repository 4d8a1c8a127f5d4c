/-
Programs as text.

Every binary expression is written in parentheses, so the text needs no precedence.  The
one exception is a comparison that a `print` shows: the grammar has no parentheses for it,
so it stands bare.  A float literal is written with the shortest digits that read back,
and an infinite one as a number too large for a float.
-/
import LoopFree.Decimal.Layout
import LoopFree.Syntax.Basic

namespace LoopFree

/-- Float literals have a bare exponent, from `1e16` up and below `1e-4`. -/
def literalLayout : Layout where
  notANumber := "NaN"
  infinity := "inf"
  leastPlain := -4
  greatestPlain := 15
  plus := ""
  exponentWidth := 1

/-- The text of a float literal.  Infinity is written as a number that rounds to it. -/
def floatLiteralText (x : Float) : String :=
  if !Binary64.isNegative x && Binary64.index x == Binary64.infinityIndex then "1e999"
  else literalLayout.text x

/-- The text of a boolean. -/
def boolText (b : Bool) : String :=
  if b then "True" else "False"

/-- The text of an integer. -/
def intText (n : Int64) : String :=
  let v := n.toInt
  if v < 0 then "-" ++ Nat.repr v.natAbs else Nat.repr v.natAbs

/-- Two operands with an operator between them. -/
def infixText (left symbol right : String) : String :=
  left ++ " " ++ symbol ++ " " ++ right

/-- The text of an expression. -/
def Expr.text : Expr → String
  | arith op l r => "(" ++ infixText l.text op.symbol r.text ++ ")"
  | logic op l r => "(" ++ infixText l.text op.symbol r.text ++ ")"
  | compare op l r => "(" ++ infixText l.text op.symbol r.text ++ ")"
  | int n => intText n
  | float x => floatLiteralText x
  | bool b => boolText b
  | var x => x

/-- The text of what a `print` shows: a comparison at the top has no parentheses. -/
def Expr.printedText : Expr → String
  | compare op l r => infixText l.text op.symbol r.text
  | e => e.text

mutual

/-- The text of a statement. -/
def Stmt.text : Stmt → String
  | .block body => "\x7b" ++ Stmt.blockText body ++ " \x7d"
  | .empty => ";"
  | .assign x e => x ++ " := " ++ e.text ++ ";"
  | .print e => "print " ++ e.printedText ++ ";"
  | .ifThen c body => "if (" ++ c.text ++ ") " ++ body.text

/-- The text of the statements in a block, each after a blank. -/
def Stmt.blockText : List Stmt → String
  | [] => ""
  | s :: rest => " " ++ s.text ++ Stmt.blockText rest

end

/-- The text of a program, one top-level statement to a line. -/
def Program.text (p : Program) : String :=
  "\n".intercalate (p.map Stmt.text)

end LoopFree
