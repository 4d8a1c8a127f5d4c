/-
Reading programs from tokens.

    program   = statement*
    statement = 'print' sum (('==' | '!=') sum)? ';'
              | name ':=' sum ';'
              | ';'
              | 'if' '(' condition ')' statement
              | '{' statement* '}'
    condition = test (('&&' | '||') test)*
    test      = truth (('==' | '!=') truth)?
    truth     = 'True' | 'False' | '(' condition ')'
    sum       = product (('+' | '-') product)*
    product   = operand (('*' | '/') operand)*
    operand   = name | integer | float | '(' sum ')'

A parser takes tokens from the front of a list and hands on the rest.  Nesting is counted
down: `room` is how many more levels of parentheses, blocks and conditionals may open, so
the parsers recurse on it, and a level opened without room is an error at the token that
opens it.  The loops over operators and statements walk down the tokens that are left when
they start, one token a round, while every round takes at least one; so they never stop
short.

The tokens may end because the source could not be read on.  Then that failure is what is
reported in place of an unexpected end.  A name is looked past before it is taken for the
start of an assignment, so a failure right behind it comes first too.
-/
import LoopFree.Token.Cursor
import LoopFree.Decimal.Reading
import LoopFree.Syntax.Basic

namespace LoopFree

/-- What a parser was looking for. -/
inductive Expectation
  | token (kind : TokenKind)
  /-- The start of an operand. -/
  | operand
  /-- The start of a truth value. -/
  | truth
  /-- The start of a statement. -/
  | statement
  /-- A number literal. -/
  | number
deriving Repr, DecidableEq

/-- An expectation in words. -/
def Expectation.describe : Expectation → String
  | token k => k.describe
  | operand => "an identifier, a number or '('"
  | truth => "'True', 'False' or '('"
  | statement => "a statement"
  | number => "a number"

/-- The deepest nesting of parentheses, blocks and conditionals. -/
def maxNesting : Nat := 256

/-- Why a source is no program. -/
inductive ParseError
  /-- The tokens could not be read. -/
  | lexical (why : LexError)
  /-- Another token stands where something was expected. -/
  | expected (what : Expectation) (found : Token) (position : Position)
  /-- The source ends where something was expected. -/
  | unexpectedEnd (what : Expectation)
  /-- A token that starts no statement. -/
  | unexpectedToken (token : Token) (position : Position)
  /-- An integer literal above the greatest integer. -/
  | numberOutOfRange (digits : String) (position : Position)
  /-- A level of nesting too many. -/
  | tooDeep (position : Position)
deriving Repr, DecidableEq

/-- The error in words. -/
def ParseError.message : ParseError → String
  | lexical why => why.message
  | expected what found p =>
      "expected " ++ what.describe ++ ", found '" ++ found.text ++ "' at " ++ p.text
  | unexpectedEnd what => "expected " ++ what.describe ++ ", found end of input"
  | unexpectedToken t p => "unexpected token '" ++ t.text ++ "' at " ++ p.text
  | numberOutOfRange s p => "number literal '" ++ s ++ "' is out of range at " ++ p.text
  | tooDeep p =>
      "nesting deeper than " ++ Nat.repr maxNesting ++ " levels at " ++ p.text

/-- Takes tokens from the front of a list. -/
abbrev Parser (α : Type) := List Lexeme → Except ParseError (α × List Lexeme)

/-- Goes on after a token that opens a level of nesting and stands at a position. -/
abbrev Opened (α : Type) := Position → Parser α

namespace Parser

/-- The error at the end of the tokens, which `cut` says whether a failure brought about. -/
def endError (cut : Option LexError) (what : Expectation) : ParseError :=
  match cut with
  | some why => .lexical why
  | none => .unexpectedEnd what

/-- The error at the next token. -/
def refuse {α : Type} (cut : Option LexError) (what : Expectation) : Parser α
  | [] => .error (endError cut what)
  | l :: _ => .error (.expected what l.token l.position)

/-- Takes a token of the given kind. -/
def expect (cut : Option LexError) (k : TokenKind) : Parser Unit
  | [] => refuse cut (.token k) []
  | l :: rest => if l.token.kind = k then .ok ((), rest) else refuse cut (.token k) (l :: rest)

/-- A level of nesting for which there is no room. -/
def noRoom {α : Type} : Opened α :=
  fun p _ => .error (.tooDeep p)

/-- What stands in parentheses, after the opening one. -/
def parenthesized (cut : Option LexError) (inner : Parser Expr) : Opened Expr :=
  fun _ ts => do
    let (e, ts) ← inner ts
    let (_, ts) ← expect cut .rightParen ts
    return (e, ts)

/-! ### Chains of operators -/

/-- How a token joins the expressions on either side of it, at some level of precedence. -/
abbrev Joins := Token → Option (Expr → Expr → Expr)

/-- Addition and subtraction. -/
def sumJoins : Joins
  | .plus => some (.arith .add)
  | .minus => some (.arith .sub)
  | _ => none

/-- Multiplication and division. -/
def productJoins : Joins
  | .star => some (.arith .mul)
  | .slash => some (.arith .div)
  | _ => none

/-- The connectives. -/
def logicJoins : Joins
  | .and => some (.logic .and)
  | .or => some (.logic .or)
  | _ => none

/-- The comparisons. -/
def compareJoins : Joins
  | .doubleEquals => some (.compare .eq)
  | .notEquals => some (.compare .notEq)
  | _ => none

/-- Goes on with a chain whose left part has been read, for at most as many operators as
there are tokens in `bound`. -/
def chainFrom (joins : Joins) (part : Parser Expr) : List Lexeme → Expr → Parser Expr
  | _ :: bound, left, l :: rest =>
      match joins l.token with
      | none => .ok (left, l :: rest)
      | some join => do
          let (right, rest) ← part rest
          chainFrom joins part bound (join left right) rest
  | _, left, ts => .ok (left, ts)

/-- Parts joined by any number of operators, which associate to the left. -/
def chain (joins : Joins) (part : Parser Expr) : Parser Expr :=
  fun ts => do
    let (first, rest) ← part ts
    chainFrom joins part rest first rest

/-- One part, or two joined by an operator. -/
def joinedOnce (joins : Joins) (part : Parser Expr) : Parser Expr :=
  fun ts => do
    let (left, rest) ← part ts
    chainFrom joins part (rest.take 1) left rest

/-! ### Expressions -/

/-- An operand of arithmetic. -/
def operand (cut : Option LexError) (group : Opened Expr) : Parser Expr
  | ⟨.identifier x, _⟩ :: rest => .ok (.var x, rest)
  | ⟨.integer s, p⟩ :: rest =>
      match intOfLiteral? s with
      | some n => .ok (.int n, rest)
      | none => .error (.numberOutOfRange s p)
  | ⟨.float s, _⟩ :: rest => .ok (.float (floatOfLiteral s), rest)
  | ⟨.leftParen, p⟩ :: rest => group p rest
  | ts => refuse cut .operand ts

/-- Arithmetic, given what may stand in parentheses. -/
def sumOver (cut : Option LexError) (group : Opened Expr) : Parser Expr :=
  chain sumJoins (chain productJoins (operand cut group))

/-- Arithmetic with room for so many levels of nesting. -/
def sum (cut : Option LexError) : Nat → Parser Expr
  | 0 => sumOver cut noRoom
  | room + 1 => sumOver cut (parenthesized cut (sum cut room))

/-- A truth value. -/
def truth (cut : Option LexError) (group : Opened Expr) : Parser Expr
  | ⟨.trueWord, _⟩ :: rest => .ok (.bool true, rest)
  | ⟨.falseWord, _⟩ :: rest => .ok (.bool false, rest)
  | ⟨.leftParen, p⟩ :: rest => group p rest
  | ts => refuse cut .truth ts

/-- A condition, given what may stand in parentheses. -/
def conditionOver (cut : Option LexError) (group : Opened Expr) : Parser Expr :=
  chain logicJoins (joinedOnce compareJoins (truth cut group))

/-- A condition with room for so many levels of nesting. -/
def condition (cut : Option LexError) : Nat → Parser Expr
  | 0 => conditionOver cut noRoom
  | room + 1 => conditionOver cut (parenthesized cut (condition cut room))

/-! ### Statements -/

/-- Takes a statement if one starts at the front of the list. -/
abbrev StmtParser := List Lexeme → Except ParseError (Option (Stmt × List Lexeme))

/-- The rest of a statement that ends with a semicolon. -/
def closed (cut : Option LexError) (e : Parser Expr) (make : Expr → Stmt) : Parser Stmt :=
  fun ts => do
    let (e, ts) ← e ts
    let (_, ts) ← expect cut .semicolon ts
    return (make e, ts)

/-- A statement, where nothing else will do. -/
def required (cut : Option LexError) (statement : StmtParser) : Parser Stmt :=
  fun ts => do
    match ← statement ts, ts with
    | some r, _ => return r
    | none, [] => throw (endError cut .statement)
    | none, l :: _ => throw (.unexpectedToken l.token l.position)

/-- A conditional, after `if`. -/
def ifThen (cut : Option LexError) (condition : Parser Expr) (statement : StmtParser) :
    Opened Stmt :=
  fun _ ts => do
    let (_, ts) ← expect cut .leftParen ts
    let (c, ts) ← condition ts
    let (_, ts) ← expect cut .rightParen ts
    let (body, ts) ← required cut statement ts
    return (.ifThen c body, ts)

/-- Statements one after another, at most as many as there are tokens in `bound`. -/
def statementsFrom (statement : StmtParser) : List Lexeme → Parser (List Stmt)
  | [], ts => .ok ([], ts)
  | _ :: bound, ts => do
      match ← statement ts with
      | none => return ([], ts)
      | some (s, ts) =>
          let (rest, ts) ← statementsFrom statement bound ts
          return (s :: rest, ts)

/-- Statements one after another, up to a token that starts none. -/
def statements (statement : StmtParser) : Parser (List Stmt) :=
  fun ts => statementsFrom statement ts ts

/-- A block, after its opening brace. -/
def block (cut : Option LexError) (statement : StmtParser) : Opened Stmt :=
  fun _ ts => do
    let (body, ts) ← statements statement ts
    let (_, ts) ← expect cut .rightBrace ts
    return (.block body, ts)

/-- A statement, given its expressions and how conditionals and blocks go on. -/
def statementOver (cut : Option LexError) (sum : Parser Expr) (ifThen block : Opened Stmt) :
    StmtParser
  | ⟨.printWord, _⟩ :: rest =>
      some <$> closed cut (joinedOnce compareJoins sum) .print rest
  | ⟨.identifier x, _⟩ :: rest =>
      match rest, cut with
      | ⟨.assign, _⟩ :: rest, _ => some <$> closed cut sum (.assign x) rest
      | [], some why => .error (.lexical why)
      | _, _ => .ok none
  | ⟨.semicolon, _⟩ :: rest => .ok (some (.empty, rest))
  | ⟨.ifWord, p⟩ :: rest => some <$> ifThen p rest
  | ⟨.leftBrace, p⟩ :: rest => some <$> block p rest
  | _ => .ok none

/-- A statement with room for so many levels of nesting. -/
def statement (cut : Option LexError) : Nat → StmtParser
  | 0 => statementOver cut (sum cut 0) noRoom noRoom
  | room + 1 =>
      statementOver cut (sum cut (room + 1))
        (ifThen cut (condition cut room) (statement cut room))
        (block cut (statement cut room))

/-- A program, which takes all the tokens. -/
def program (cut : Option LexError) (ts : List Lexeme) : Except ParseError Program := do
  let (body, rest) ← statements (statement cut maxNesting) ts
  match rest, cut with
  | [], none => return body
  | [], some why => throw (.lexical why)
  | l :: _, _ => throw (.unexpectedToken l.token l.position)

end Parser

/-- Reads a source as a program. -/
def Source.parse (s : Source) : Except ParseError Program :=
  Parser.program s.feed.cut s.feed.lexemes

end LoopFree
