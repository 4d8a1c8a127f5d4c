/-
Programs as trees.

An expression is arithmetic, a connective of booleans, a comparison, a literal or a
variable.  The trees say more than the grammar does: a tree may compare anything with
anything, hold a negative literal, or name a variable with any text at all.

`Alike` comparisons of trees compare float literals as numbers, so a literal that is no
number is unlike itself and the two zeros are alike.
-/

namespace LoopFree

/-- The operators on numbers. -/
inductive ArithOp
  | add | sub | mul | div
deriving Repr, DecidableEq

/-- The sign of an operator on numbers. -/
def ArithOp.symbol : ArithOp → String
  | add => "+"
  | sub => "-"
  | mul => "*"
  | div => "/"

/-- The connectives of booleans. -/
inductive LogicOp
  | and | or
deriving Repr, DecidableEq

/-- The sign of a connective. -/
def LogicOp.symbol : LogicOp → String
  | and => "&&"
  | or => "||"

/-- The comparisons. -/
inductive CompareOp
  | eq | notEq
deriving Repr, DecidableEq

/-- The sign of a comparison. -/
def CompareOp.symbol : CompareOp → String
  | eq => "=="
  | notEq => "!="

/-- Expressions. -/
inductive Expr
  | arith (op : ArithOp) (left right : Expr)
  | logic (op : LogicOp) (left right : Expr)
  | compare (op : CompareOp) (left right : Expr)
  | int (n : Int64)
  | float (x : Float)
  | bool (b : Bool)
  | var (name : String)
deriving DecidableEq, Inhabited

/-- Two expressions are equal, float literals being compared as numbers. -/
def Expr.alike : Expr → Expr → Bool
  | arith op l r, arith op' l' r' => op == op' && l.alike l' && r.alike r'
  | logic op l r, logic op' l' r' => op == op' && l.alike l' && r.alike r'
  | compare op l r, compare op' l' r' => op == op' && l.alike l' && r.alike r'
  | int n, int n' => n == n'
  | float x, float x' => x == x'
  | bool b, bool b' => b == b'
  | var x, var x' => x == x'
  | _, _ => false

/-- Statements. -/
inductive Stmt
  /-- Statements in braces. -/
  | block (body : List Stmt)
  /-- A lone semicolon. -/
  | empty
  | assign (name : String) (value : Expr)
  | print (value : Expr)
  /-- A conditional with one branch. -/
  | ifThen (condition : Expr) (body : Stmt)
deriving Inhabited

mutual

/-- Two statements are equal, float literals being compared as numbers. -/
def Stmt.alike : Stmt → Stmt → Bool
  | .block body, .block body' => Stmt.alikeAll body body'
  | .empty, .empty => true
  | .assign x e, .assign x' e' => x == x' && e.alike e'
  | .print e, .print e' => e.alike e'
  | .ifThen c body, .ifThen c' body' => c.alike c' && body.alike body'
  | _, _ => false

/-- Two lists of statements are equal, float literals being compared as numbers. -/
def Stmt.alikeAll : List Stmt → List Stmt → Bool
  | [], [] => true
  | s :: rest, s' :: rest' => s.alike s' && Stmt.alikeAll rest rest'
  | _, _ => false

end

/-- A program is its top-level statements. -/
abbrev Program := List Stmt

/-- Two programs are equal, float literals being compared as numbers. -/
def Program.alike (p q : Program) : Bool :=
  Stmt.alikeAll p q

end LoopFree
