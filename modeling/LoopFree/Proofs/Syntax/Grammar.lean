/-
The grammar of the language, said without the parser.

`Derives c d ts e` says that the tokens `ts` derive the tree `e` in category `c`, and
that the deepest point of the derivation lies in `d` pairs of parentheses.  There is one
constructor for each production, and a production that repeats itself does so on the
left, which is how its trees associate.  `DerivesStmt` and `DerivesStmts` do the same
for statements, where blocks and conditionals count into the depth as well; the
parentheses around the condition of a conditional belong to it and do not count.

The grammar reads an integer literal of any size; which of them are in range is a
condition on the tokens of its own, `Token.InRange`.
-/
import LoopFree.Decimal.Reading
import LoopFree.Syntax.Basic

namespace LoopFree

/-! ### The tokens of operators -/

/-- The token that an operator on numbers is written with. -/
def ArithOp.token : ArithOp → Token
  | add => .plus
  | sub => .minus
  | mul => .star
  | div => .slash

/-- The token that a connective is written with. -/
def LogicOp.token : LogicOp → Token
  | and => .and
  | or => .or

/-- The token that a comparison is written with. -/
def CompareOp.token : CompareOp → Token
  | eq => .doubleEquals
  | notEq => .notEquals

namespace Grammar

/-! ### Expressions

A category for each level of precedence, and every chain leaning to the left.  Parentheses are the
only thing here that nests: a chain may be of any length, however deep the tree gets.
-/

/-- The categories of expressions. -/
inductive Category
  | sum
  | product
  | operand
  /-- What a `print` shows. -/
  | shown
  | condition
  | test
  | truth
deriving Repr, DecidableEq

/-- The tokens derive the tree in the category, and nest so many pairs of parentheses. -/
inductive Derives : Category → Nat → List Token → Expr → Prop
  | name (x : String) : Derives .operand 0 [.identifier x] (.var x)
  | integer (s : String) :
      Derives .operand 0 [.integer s] (.int (Int64.ofNat (digitsValue s.toList)))
  | float (s : String) : Derives .operand 0 [.float s] (.float (floatOfLiteral s))
  | sumGroup {d : Nat} {ts : List Token} {e : Expr} (h : Derives .sum d ts e) :
      Derives .operand (d + 1) (.leftParen :: (ts ++ [.rightParen])) e
  | factor {d : Nat} {ts : List Token} {e : Expr} (h : Derives .operand d ts e) :
      Derives .product d ts e
  | scaled {op : ArithOp} {d d' : Nat} {ts ts' : List Token} {l r : Expr}
      (hop : op = .mul ∨ op = .div) (hl : Derives .product d ts l)
      (hr : Derives .operand d' ts' r) :
      Derives .product (max d d') (ts ++ op.token :: ts') (.arith op l r)
  | term {d : Nat} {ts : List Token} {e : Expr} (h : Derives .product d ts e) :
      Derives .sum d ts e
  | added {op : ArithOp} {d d' : Nat} {ts ts' : List Token} {l r : Expr}
      (hop : op = .add ∨ op = .sub) (hl : Derives .sum d ts l)
      (hr : Derives .product d' ts' r) :
      Derives .sum (max d d') (ts ++ op.token :: ts') (.arith op l r)
  | value {d : Nat} {ts : List Token} {e : Expr} (h : Derives .sum d ts e) :
      Derives .shown d ts e
  | valuesCompared {d d' : Nat} {ts ts' : List Token} {l r : Expr} (op : CompareOp)
      (hl : Derives .sum d ts l) (hr : Derives .sum d' ts' r) :
      Derives .shown (max d d') (ts ++ op.token :: ts') (.compare op l r)
  | trueWord : Derives .truth 0 [.trueWord] (.bool true)
  | falseWord : Derives .truth 0 [.falseWord] (.bool false)
  | conditionGroup {d : Nat} {ts : List Token} {e : Expr} (h : Derives .condition d ts e) :
      Derives .truth (d + 1) (.leftParen :: (ts ++ [.rightParen])) e
  | alone {d : Nat} {ts : List Token} {e : Expr} (h : Derives .truth d ts e) :
      Derives .test d ts e
  | truthsCompared {d d' : Nat} {ts ts' : List Token} {l r : Expr} (op : CompareOp)
      (hl : Derives .truth d ts l) (hr : Derives .truth d' ts' r) :
      Derives .test (max d d') (ts ++ op.token :: ts') (.compare op l r)
  | tested {d : Nat} {ts : List Token} {e : Expr} (h : Derives .test d ts e) :
      Derives .condition d ts e
  | connected {d d' : Nat} {ts ts' : List Token} {l r : Expr} (op : LogicOp)
      (hl : Derives .condition d ts l) (hr : Derives .test d' ts' r) :
      Derives .condition (max d d') (ts ++ op.token :: ts') (.logic op l r)

/-! ### Statements -/

mutual

/-- The tokens derive the statement, and nest so many parentheses, blocks and
conditionals. -/
inductive DerivesStmt : Nat → List Token → Stmt → Prop
  | empty : DerivesStmt 0 [.semicolon] .empty
  | assign {d : Nat} {ts : List Token} {e : Expr} (x : String) (h : Derives .sum d ts e) :
      DerivesStmt d (.identifier x :: .assign :: (ts ++ [.semicolon])) (.assign x e)
  | print {d : Nat} {ts : List Token} {e : Expr} (h : Derives .shown d ts e) :
      DerivesStmt d (.printWord :: (ts ++ [.semicolon])) (.print e)
  | ifThen {d d' : Nat} {ts ts' : List Token} {c : Expr} {body : Stmt}
      (hc : Derives .condition d ts c) (hbody : DerivesStmt d' ts' body) :
      DerivesStmt (max d d' + 1) (.ifWord :: .leftParen :: (ts ++ .rightParen :: ts'))
        (.ifThen c body)
  | block {d : Nat} {ts : List Token} {body : List Stmt} (h : DerivesStmts d ts body) :
      DerivesStmt (d + 1) (.leftBrace :: (ts ++ [.rightBrace])) (.block body)

/-- The tokens derive the statements, one after another. -/
inductive DerivesStmts : Nat → List Token → List Stmt → Prop
  | nil : DerivesStmts 0 [] []
  | cons {d d' : Nat} {ts ts' : List Token} {s : Stmt} {rest : List Stmt}
      (h : DerivesStmt d ts s) (hrest : DerivesStmts d' ts' rest) :
      DerivesStmts (max d d') (ts ++ ts') (s :: rest)

end

end Grammar

/-- An integer literal is at most the greatest integer. -/
def Token.InRange : Token → Prop
  | .integer s => (digitsValue s.toList : Int) ≤ Int64.maxValue.toInt
  | _ => True

theorem ArithOp.token_inRange (op : ArithOp) : op.token.InRange := by
  cases op <;> trivial

theorem LogicOp.token_inRange (op : LogicOp) : op.token.InRange := by
  cases op <;> trivial

theorem CompareOp.token_inRange (op : CompareOp) : op.token.InRange := by
  cases op <;> trivial

end LoopFree
