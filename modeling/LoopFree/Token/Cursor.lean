/-
Reading a source token by token.

A cursor stands in a line of the source: it knows what is left of the line, where that
starts, and which lines come after.  `Cursor.next` skips blanks, across lines where it
must, and scans one token.  A line that cannot be read fails when it is reached; it is
passed over and does not count in the line numbers.  A character or a literal that is no
token fails where it stands and is not passed over.

`Cursor.lexemes` runs to the first failure or to the end.  Every token takes at least one
character, so the number of characters left bounds its steps.
-/
import LoopFree.Token.Scan
import LoopFree.Source
import LoopFree.Text.Blank

namespace LoopFree

/-- Why no token could be given. -/
inductive LexError
  /-- A character that starts no token. -/
  | unexpectedCharacter (c : Char) (position : Position)
  /-- A number literal whose exponent has no digits. -/
  | malformedExponent (literal : String) (position : Position)
  /-- More tokens were asked for than the source has left. -/
  | notEnoughTokens (requested available : Nat)
  /-- The tables of fixed spellings do not fit together. -/
  | invalidTable (why : TableError)
  /-- A line could not be read. -/
  | unreadable (why : ReadFailure)
deriving Repr, DecidableEq

namespace LexError

/-- The error in words. -/
def message : LexError → String
  | unexpectedCharacter c p =>
      "unexpected character '" ++ String.singleton c ++ "' at " ++ p.text
  | malformedExponent l p =>
      "malformed exponent in float literal '" ++ l ++ "' at " ++ p.text
  | notEnoughTokens requested available =>
      "not enough tokens: requested " ++ Nat.repr requested ++ ", " ++ Nat.repr available
        ++ " available"
  | invalidTable why => "invalid token table: " ++ why.message
  | unreadable why => "failed to read source: " ++ why.message

end LexError

/-- A place in a source that is being read. -/
structure Cursor where
  /-- What is left of the current line. -/
  rest : List Char
  /-- Where that starts. -/
  position : Position
  /-- The lines after the current one. -/
  unread : List Line
deriving Repr, DecidableEq

namespace Cursor

/-- Before the first line of a source. -/
def start (s : Source) : Cursor :=
  ⟨[], ⟨0, 1⟩, s.lines⟩

/-- The cursor after the blanks at the head of the current line. -/
def skipBlanks (c : Cursor) : Cursor :=
  { c with
    rest := c.rest.dropWhile Text.isBlank
    position := c.position.advance (c.rest.takeWhile Text.isBlank).length }

/-- The start of a line that has just been read. -/
def enterLine (chars : List Char) (previous : Nat) (unread : List Line) : Cursor :=
  ⟨chars, ⟨previous + 1, 1⟩, unread⟩

/-- What a step to the next token came to. -/
inductive Step
  /-- A token, and the cursor after it. -/
  | lexeme (l : Lexeme) (after : Cursor)
  /-- The end of the source. -/
  | done (after : Cursor)
  /-- No token, and the cursor from which a later step goes on. -/
  | failed (why : LexError) (after : Cursor)
deriving Repr, DecidableEq

/-- Scans the token at the head of the current line, which starts with no blank. -/
def scanHere (c : Cursor) : Step :=
  match scan c.rest with
  | .token t rest =>
      .lexeme ⟨t, c.position⟩
        { c with rest := rest, position := c.position.advance t.text.toList.length }
  | .unexpected ch => .failed (.unexpectedCharacter ch c.position) c
  | .malformed literal => .failed (.malformedExponent literal c.position) c
  | .nothing => .done c

/-- Reads on from the end of line number `number`, whose last place is `position`. -/
def nextLine (position : Position) : List Line → Step
  | [] => .done ⟨[], position, []⟩
  | .unreadable why :: unread => .failed (.unreadable why) ⟨[], position, unread⟩
  | .text chars :: unread =>
      let c := (enterLine chars position.line unread).skipBlanks
      if c.rest.isEmpty then nextLine c.position unread else c.scanHere

/-- The next token of the source. -/
def next (c : Cursor) : Step :=
  let c := c.skipBlanks
  if c.rest.isEmpty then nextLine c.position c.unread else c.scanHere

/-- The number of characters left in the lines that can be read. -/
def charsLeft (c : Cursor) : Nat :=
  c.rest.length +
    (c.unread.map fun | .text chars => chars.length | .unreadable _ => 0).foldr (· + ·) 0

/-- What a cursor gives until it fails or ends. -/
structure Feed where
  /-- The tokens, in order. -/
  lexemes : List Lexeme
  /-- The failure that cut the tokens off, if one did. -/
  cut : Option LexError
  /-- The cursor after that. -/
  after : Cursor
deriving Repr, DecidableEq

/-- Takes at most `fuel` tokens. -/
def feedUpTo : Nat → Cursor → Feed
  | 0, c => ⟨[], none, c⟩
  | fuel + 1, c =>
      match c.next with
      | .done after => ⟨[], none, after⟩
      | .failed why after => ⟨[], some why, after⟩
      | .lexeme l after =>
          let feed := feedUpTo fuel after
          { feed with lexemes := l :: feed.lexemes }

/-- All tokens up to the first failure or the end. -/
def feed (c : Cursor) : Feed :=
  feedUpTo (c.charsLeft + 1) c

end Cursor

/-- All tokens of a source up to the first failure or the end. -/
def Source.feed (s : Source) : Cursor.Feed :=
  (Cursor.start s).feed

end LoopFree
