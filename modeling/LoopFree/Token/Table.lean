/-
The tables of fixed spellings.

`operators` and `keywords` list the tokens that have only one spelling.  A table of
operators and one of keywords fit together when every keyword is a word and no operator
starts like one; then an operator and a word never compete for the same text.
`validateTables` checks that and names the first entry in the way.
-/
import LoopFree.Token.Basic
import LoopFree.Token.Word

namespace LoopFree

/-- A table entry: a spelling and the token it stands for. -/
abbrev Entry := String × Token

/-- Operators and punctuation. -/
def operators : List Entry :=
  [("+", .plus), ("-", .minus), ("*", .star), ("/", .slash), (":=", .assign),
    (";", .semicolon), ("(", .leftParen), (")", .rightParen), ("\x7b", .leftBrace),
    ("\x7d", .rightBrace), ("&&", .and), ("||", .or), ("==", .doubleEquals),
    ("!=", .notEquals)]

/-- The words that are no names. -/
def keywords : List Entry :=
  [("if", .ifWord), ("print", .printWord), ("True", .trueWord), ("False", .falseWord)]

/-- What is wrong with a pair of tables. -/
inductive TableError
  /-- A keyword is no word. -/
  | keywordNotWord (keyword : String)
  /-- An operator starts with a character that starts a word. -/
  | operatorStartsWord (operator : String)
deriving Repr, DecidableEq

namespace TableError

/-- The error in words. -/
def message : TableError → String
  | keywordNotWord k => "keyword '" ++ k ++ "' is not an identifier"
  | operatorStartsWord o => "operator '" ++ o ++ "' would lex as an identifier"

end TableError

/-- The text starts like a word. -/
def startsWord : List Char → Bool
  | [] => false
  | c :: _ => isWordStart c

/-- Checks that keywords are words and operators do not start like one. -/
def validateTables (operators keywords : List Entry) : Except TableError Unit :=
  match keywords.find? fun e => !isWord e.1.toList with
  | some e => .error (.keywordNotWord e.1)
  | none =>
      match operators.find? fun e => startsWord e.1.toList with
      | some e => .error (.operatorStartsWord e.1)
      | none => .ok ()

/-- The keyword that a word is, if it is one. -/
def keyword? (word : String) : Option Token :=
  (keywords.find? fun e => e.1 == word).map (·.2)

/-- The longer of two matches; of equally long ones the later. -/
def longer (best : Option Entry) (e : Entry) : Option Entry :=
  match best with
  | some b => if b.1.toList.length ≤ e.1.toList.length then some e else some b
  | none => some e

/-- The longest operator of a table that a text starts with. -/
def longestOperator (table : List Entry) (cs : List Char) : Option Entry :=
  (table.filter fun e => e.1.toList.isPrefixOf cs).foldl longer none

/-- The longest operator that a text starts with. -/
def operator? (cs : List Char) : Option Entry :=
  longestOperator operators cs

end LoopFree
