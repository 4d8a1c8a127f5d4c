/-
Reading programs from a look-ahead.

The parser of `Syntax/Parser.lean` is given all the tokens there are.  Here the same grammar is
read from a look-ahead, which scans no further than it is asked to.  Before anything is done with
a token it is made sure that there is one, and of which kind it is; then it is looked at again,
or taken.  A request that fails ends the reading with its failure.

Looking at a token and taking it are left open, as an `Access`: the reading depends on what they
do with a token that is held and of a kind that was made sure of, and on nothing else of them.

The loops are given as many rounds as there can be tokens, and one more.  Every token takes a
character and every round a token, so they never stop short.
-/
import LoopFree.Syntax.Parser
import LoopFree.Token.Lookahead

namespace LoopFree

namespace Lookahead

variable {s : Lookahead} {l : Lexeme}

/-- Nothing is scanned for what is held already. -/
theorem fill_of_le {n : Nat} (h : n ≤ s.held.length) : s.fill n = (.ok true, s) := by
  rw [fill, Nat.sub_eq_zero_of_le h, scanMore]

/-- A token that is held is seen. -/
theorem peek_held {offset : Nat} (h : s.held[offset]? = some l) :
    s.peek offset = (.ok l, s) := by
  have hlt : offset < s.held.length := (List.getElem?_eq_some_iff.mp h).1
  simp only [peek, fill_of_le hlt, h]

/-- A token that is held is taken. -/
theorem takeOne_held {held : List Lexeme} (h : s.held = l :: held) :
    s.takeOne = (.ok l, { s with held := held }) := by
  have hle : 1 ≤ s.held.length := by
    rw [h]
    exact Nat.succ_pos _
  simp only [takeOne, next?, fill_of_le hle, h]

end Lookahead

/-- How to look at a token and how to take one.  Both are told which kinds of token the caller has
made sure of, and they have to give the token only if it is held and of such a kind. -/
structure Access where
  /-- The token `offset` places ahead, which stays where it is. -/
  look : (TokenKind → Prop) → Nat → Lookahead → Lookahead.Answer Lexeme × Lookahead
  /-- The next token, which is taken. -/
  take : (TokenKind → Prop) → Lookahead → Lookahead.Answer Lexeme × Lookahead
  look_held : ∀ {kinds : TokenKind → Prop} {offset : Nat} {s : Lookahead} {l : Lexeme},
    s.held[offset]? = some l → kinds l.token.kind → look kinds offset s = (.ok l, s)
  take_held : ∀ {kinds : TokenKind → Prop} {s : Lookahead} {l : Lexeme} {held : List Lexeme},
    s.held = l :: held → kinds l.token.kind → take kinds s = (.ok l, { s with held := held })

/-- The look-ahead's own requests, which scan for what is not held and look at no kind. -/
def Access.requests : Access where
  look _ offset s := s.peek offset
  take _ s := s.takeOne
  look_held h _ := Lookahead.peek_held h
  take_held h _ := Lookahead.takeOne_held h

/-- Reads from a look-ahead. -/
abbrev OnDemand (α : Type) := StateT Lookahead (Except ParseError) α

namespace OnDemand

/-- Asks the look-ahead for something. -/
def ask {α : Type} (request : Lookahead → Lookahead.Answer α × Lookahead) : OnDemand α :=
  fun s =>
    match request s with
    | (.ok a, s) => .ok (a, s)
    | (.error why, _) => .error (.lexical why)

/-- Whether at least `n` more tokens follow. -/
def hasNext (n : Nat) : OnDemand Bool :=
  ask (·.hasNext n)

/-- How many rounds a loop may take. -/
def rounds : OnDemand Nat :=
  return (← get).tokensAtMost + 1

variable (a : Access)

/-- Looks at a token, of whatever kind. -/
def look (offset : Nat) : OnDemand Lexeme :=
  ask (a.look (fun _ => True) offset)

/-- Takes the next token, which is known to be of one of the kinds. -/
def advance (kinds : TokenKind → Prop) : OnDemand Lexeme :=
  ask (a.take kinds)

/-- The kind of the token `offset` places ahead, if there is one. -/
def peekKind (offset : Nat) : OnDemand (Option TokenKind) := do
  if ← hasNext (offset + 1) then
    return some (← look a offset).token.kind
  else
    return none

/-- Whether the next token is of the kind. -/
def check (k : TokenKind) : OnDemand Bool :=
  return decide ((← peekKind a 0) = some k)

/-- Takes the next token if it is of the kind. -/
def eat (k : TokenKind) : OnDemand Bool := do
  if ← check a k then
    let _ ← advance a (· = k)
    return true
  else
    return false

/-- The error at the next token, or at the end. -/
def refuse {α : Type} (what : Expectation) : OnDemand α := do
  if ← hasNext 1 then
    let l ← look a 0
    throw (.expected what l.token l.position)
  else
    throw (.unexpectedEnd what)

/-- The error at a token that starts no statement, or at the end. -/
def unexpected {α : Type} : OnDemand α := do
  if ← hasNext 1 then
    let l ← look a 0
    throw (.unexpectedToken l.token l.position)
  else
    throw (.unexpectedEnd .statement)

/-- Takes a token of the given kind. -/
def expect (k : TokenKind) : OnDemand Unit := do
  if ← check a k then
    let _ ← advance a (· = k)
    return ()
  else
    refuse a (.token k)

/-- Takes a name. -/
def expectName : OnDemand String := do
  let name ←
    if ← hasNext 1 then
      match (← look a 0).token with
      | .identifier x => pure (some x)
      | _ => pure none
    else
      pure none
  match name with
  | some x =>
      let _ ← advance a (· = .identifier)
      return x
  | none => refuse a (.token .identifier)

/-- A level of nesting for which there is no room: the error is at the token that opens it, which
is the next one. -/
def noRoom {α : Type} (opener : TokenKind) : OnDemand α := do
  let l ← ask (a.look (· = opener) 0)
  throw (.tooDeep l.position)

/-- What stands in parentheses, with the opening one. -/
def parenthesized (inner : OnDemand Expr) : OnDemand Expr := do
  let _ ← advance a (· = .leftParen)
  let e ← inner
  expect a .rightParen
  return e

/-! ### Chains of operators -/

/-- Operators of one level of precedence, in the order in which they are tried, each with the
expression that it makes. -/
abbrev Operators := List (TokenKind × (Expr → Expr → Expr))

/-- Addition and subtraction. -/
def sumOperators : Operators :=
  [(.plus, .arith .add), (.minus, .arith .sub)]

/-- Multiplication and division. -/
def productOperators : Operators :=
  [(.star, .arith .mul), (.slash, .arith .div)]

/-- The connectives. -/
def logicOperators : Operators :=
  [(.and, .logic .and), (.or, .logic .or)]

/-- The comparisons. -/
def compareOperators : Operators :=
  [(.doubleEquals, .compare .eq), (.notEquals, .compare .notEq)]

/-- Takes an operator, if one is next. -/
def operator : Operators → OnDemand (Option (Expr → Expr → Expr))
  | [] => return none
  | (k, join) :: rest => do
      if ← eat a k then
        return some join
      else
        operator rest

/-- Reads the right part if an operator was taken, and goes on with the two joined. -/
def goOn (part : OnDemand Expr) (next : Expr → OnDemand Expr) (left : Expr) :
    Option (Expr → Expr → Expr) → OnDemand Expr
  | none => return left
  | some join => do next (join left (← part))

/-- Goes on with a chain whose left part has been read, for at most so many rounds. -/
def chainFrom (operators : Operators) (part : OnDemand Expr) : Nat → Expr → OnDemand Expr
  | 0, left => return left
  | bound + 1, left => do
      goOn part (chainFrom operators part bound) left (← operator a operators)

/-- Parts joined by any number of operators, which associate to the left. -/
def chain (operators : Operators) (part : OnDemand Expr) : OnDemand Expr := do
  let first ← part
  chainFrom a operators part (← rounds) first

/-- One part, or two joined by an operator. -/
def joinedOnce (operators : Operators) (part : OnDemand Expr) : OnDemand Expr := do
  let left ← part
  goOn part pure left (← operator a operators)

/-! ### Expressions -/

/-- The integer that the digits spell. -/
def integer (digits : String) (place : Position) : OnDemand Expr :=
  match intOfLiteral? digits with
  | some n => return .int n
  | none => throw (.numberOutOfRange digits place)

/-- A number literal. -/
def number : OnDemand Expr := do
  let l ← advance a fun k => k = .integer ∨ k = .float
  match l.token with
  | .integer s => integer s l.position
  | .float s => return .float (floatOfLiteral s)
  | found => throw (.expected .number found l.position)

/-- An operand of arithmetic. -/
def operand (group : OnDemand Expr) : OnDemand Expr := do
  match ← peekKind a 0 with
  | some .identifier => return .var (← expectName a)
  | some .integer | some .float => number a
  | some .leftParen => group
  | _ => refuse a .operand

/-- Arithmetic, given what may stand in parentheses. -/
def sumOver (group : OnDemand Expr) : OnDemand Expr :=
  chain a sumOperators (chain a productOperators (operand a group))

/-- Arithmetic with room for so many levels of nesting. -/
def sum : Nat → OnDemand Expr
  | 0 => sumOver a (noRoom a .leftParen)
  | room + 1 => sumOver a (parenthesized a (sum room))

/-- A truth value. -/
def truth (group : OnDemand Expr) : OnDemand Expr := do
  match ← peekKind a 0 with
  | some .trueWord =>
      let _ ← advance a (· = .trueWord)
      return .bool true
  | some .falseWord =>
      let _ ← advance a (· = .falseWord)
      return .bool false
  | some .leftParen => group
  | _ => refuse a .truth

/-- A condition, given what may stand in parentheses. -/
def conditionOver (group : OnDemand Expr) : OnDemand Expr :=
  chain a logicOperators (joinedOnce a compareOperators (truth a group))

/-- A condition with room for so many levels of nesting. -/
def condition : Nat → OnDemand Expr
  | 0 => conditionOver a (noRoom a .leftParen)
  | room + 1 => conditionOver a (parenthesized a (condition room))

/-! ### Statements -/

/-- A `print` of what a sum, or two of them compared, come to. -/
def printed (sum : OnDemand Expr) : OnDemand Stmt := do
  expect a .printWord
  let e ← joinedOnce a compareOperators sum
  expect a .semicolon
  return .print e

/-- An assignment. -/
def assignment (sum : OnDemand Expr) : OnDemand Stmt := do
  let x ← expectName a
  expect a .assign
  let e ← sum
  expect a .semicolon
  return .assign x e

/-- The statement, or the error at what stands in its place. -/
def orUnexpected : Option Stmt → OnDemand Stmt
  | some s => return s
  | none => unexpected a

/-- A statement, where nothing else will do. -/
def required (statement : OnDemand (Option Stmt)) : OnDemand Stmt := do
  orUnexpected a (← statement)

/-- A conditional. -/
def ifThen (condition : OnDemand Expr) (statement : OnDemand (Option Stmt)) : OnDemand Stmt := do
  expect a .ifWord
  expect a .leftParen
  let c ← condition
  expect a .rightParen
  return .ifThen c (← required a statement)

/-- The first statement and those behind it, if there was a first one. -/
def withOthers (others : OnDemand (List Stmt)) : Option Stmt → OnDemand (List Stmt)
  | none => return []
  | some s => return s :: (← others)

/-- Statements one after another, for at most so many rounds, up to a token that starts none. -/
def statementsFrom (statement : OnDemand (Option Stmt)) : Nat → OnDemand (List Stmt)
  | 0 => return []
  | bound + 1 => do withOthers (statementsFrom statement bound) (← statement)

/-- A block. -/
def block (statement : OnDemand (Option Stmt)) : OnDemand Stmt := do
  expect a .leftBrace
  let body ← statementsFrom statement (← rounds)
  expect a .rightBrace
  return .block body

/-- A statement if one is next, given sums and how conditionals and blocks are read. -/
def statementOver (sum : OnDemand Expr) (ifThen block : OnDemand Stmt) :
    OnDemand (Option Stmt) := do
  match ← peekKind a 0 with
  | some .printWord => return some (← printed a sum)
  | some .identifier =>
      if (← peekKind a 1) = some .assign then
        return some (← assignment a sum)
      else
        return none
  | some .semicolon =>
      let _ ← advance a (· = .semicolon)
      return some .empty
  | some .ifWord => return some (← ifThen)
  | some .leftBrace => return some (← block)
  | _ => return none

/-- A statement with room for so many levels of nesting. -/
def statement : Nat → OnDemand (Option Stmt)
  | 0 => statementOver a (sum a 0) (noRoom a .ifWord) (noRoom a .leftBrace)
  | room + 1 =>
      statementOver a (sum a (room + 1)) (ifThen a (condition a room) (statement room))
        (block a (statement room))

/-- Statements up to the end of the source, for at most so many rounds. -/
def statementsToEnd (statement : OnDemand (Option Stmt)) : Nat → OnDemand (List Stmt)
  | 0 => return []
  | bound + 1 => do
      if ← hasNext 1 then
        let s ← required a statement
        return s :: (← statementsToEnd statement bound)
      else
        return []

/-- A program, which takes all the tokens. -/
def program : OnDemand Program := do
  statementsToEnd a (statement a maxNesting) (← rounds)

end OnDemand

/-- Reads a source as a program, scanning only what is asked for. -/
def Access.parse (a : Access) (s : Source) : Except ParseError Program := do
  match Lookahead.open? s with
  | .error why => throw (.lexical why)
  | .ok start =>
      let (p, _) ← OnDemand.program a start
      return p

end LoopFree
