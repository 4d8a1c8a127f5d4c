/-
The tokens of the language.

The set of tokens is closed: operators and punctuation, four keywords, names and number
literals.  A number literal keeps the text it was written with; it becomes a number when
the syntax tree is built.  `TokenKind` is a token without what it carries.
-/

import LoopFree.Position

namespace LoopFree

/-- The kinds of token. -/
inductive TokenKind
  | plus | minus | star | slash
  | assign
  | semicolon | leftParen | rightParen | leftBrace | rightBrace
  | and | or | doubleEquals | notEquals
  | ifWord | printWord | trueWord | falseWord
  | identifier | integer | float
deriving Repr, DecidableEq

namespace TokenKind

/-- The spelling of a kind that has only one; names and number literals have many. -/
def spelling? : TokenKind → Option String
  | plus => some "+"
  | minus => some "-"
  | star => some "*"
  | slash => some "/"
  | assign => some ":="
  | semicolon => some ";"
  | leftParen => some "("
  | rightParen => some ")"
  | leftBrace => some "\x7b"
  | rightBrace => some "\x7d"
  | and => some "&&"
  | or => some "||"
  | doubleEquals => some "=="
  | notEquals => some "!="
  | ifWord => some "if"
  | printWord => some "print"
  | trueWord => some "True"
  | falseWord => some "False"
  | identifier | integer | float => none

/-- The name of the kind, as a token listing shows it. -/
def name : TokenKind → String
  | plus => "Plus"
  | minus => "Minus"
  | star => "Star"
  | slash => "Slash"
  | assign => "Assign"
  | semicolon => "Semicolon"
  | leftParen => "LeftParen"
  | rightParen => "RightParen"
  | leftBrace => "LeftBrace"
  | rightBrace => "RightBrace"
  | and => "And"
  | or => "Or"
  | doubleEquals => "DoubleEquals"
  | notEquals => "NotEquals"
  | ifWord => "If"
  | printWord => "Print"
  | trueWord => "True"
  | falseWord => "False"
  | identifier => "Identifier"
  | integer => "Integer"
  | float => "Float"

/-- The kind in the words of an error message: its spelling in quotes, or what it is. -/
def describe (k : TokenKind) : String :=
  match k.spelling?, k with
  | some s, _ => "'" ++ s ++ "'"
  | none, integer => "integer literal"
  | none, float => "float literal"
  | none, _ => "identifier"

end TokenKind

/-- A token.  A token of a fixed spelling is its kind; the others carry their text. -/
inductive Token
  | plus | minus | star | slash
  | assign
  | semicolon | leftParen | rightParen | leftBrace | rightBrace
  | and | or | doubleEquals | notEquals
  | ifWord | printWord | trueWord | falseWord
  /-- A name that is no keyword. -/
  | identifier (name : String)
  /-- A number written with digits alone. -/
  | integer (digits : String)
  /-- A number written with a point or an exponent. -/
  | float (literal : String)
deriving Repr, DecidableEq

namespace Token

/-- The kind of a token. -/
def kind : Token → TokenKind
  | plus => .plus
  | minus => .minus
  | star => .star
  | slash => .slash
  | assign => .assign
  | semicolon => .semicolon
  | leftParen => .leftParen
  | rightParen => .rightParen
  | leftBrace => .leftBrace
  | rightBrace => .rightBrace
  | and => .and
  | or => .or
  | doubleEquals => .doubleEquals
  | notEquals => .notEquals
  | ifWord => .ifWord
  | printWord => .printWord
  | trueWord => .trueWord
  | falseWord => .falseWord
  | identifier _ => .identifier
  | integer _ => .integer
  | float _ => .float

/-- The text of a token: what it was written with, or its only spelling. -/
def text : Token → String
  | identifier s | integer s | float s => s
  | t => t.kind.spelling?.getD ""

end Token

/-- A token together with the place where it starts. -/
structure Lexeme where
  token : Token
  position : Position
deriving Repr, DecidableEq

end LoopFree
