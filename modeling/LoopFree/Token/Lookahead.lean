/-
Tokens on demand, with any amount of look-ahead.

A look-ahead holds the tokens that have been scanned and not yet taken, and the cursor
that gives more.  Tokens are scanned only when a request needs more than are held.  A
request that meets a failure reports it and keeps the tokens scanned before it, so no
request loses a token that was not handed out.

Every request gives its answer together with the look-ahead after it, also when the
answer is an error.
-/
import LoopFree.Token.Cursor

namespace LoopFree

/-- Tokens scanned but not taken, and the place where scanning goes on. -/
structure Lookahead where
  held : List Lexeme
  cursor : Cursor
deriving Repr, DecidableEq

namespace Lookahead

/-- The answer to a request, or why there is none. -/
abbrev Answer (α : Type) := Except LexError α

/-- Opens a source, once the tables of fixed spellings are known to fit together. -/
def open? (s : Source) : Except LexError Lookahead :=
  match validateTables operators keywords with
  | .ok _ => .ok ⟨[], Cursor.start s⟩
  | .error e => .error (.invalidTable e)

/-- Scans up to `missing` more tokens; the answer says whether there were as many. -/
def scanMore : Nat → Lookahead → Answer Bool × Lookahead
  | 0, s => (.ok true, s)
  | missing + 1, s =>
      match s.cursor.next with
      | .lexeme l after => scanMore missing ⟨s.held ++ [l], after⟩
      | .done after => (.ok false, { s with cursor := after })
      | .failed why after => (.error why, { s with cursor := after })

/-- Scans until `n` tokens are held; the answer says whether there were as many. -/
def fill (n : Nat) (s : Lookahead) : Answer Bool × Lookahead :=
  scanMore (n - s.held.length) s

/-- Whether at least `n` more tokens follow. -/
def hasNext (n : Nat) (s : Lookahead) : Answer Bool × Lookahead :=
  s.fill n

/-- The token `offset` places ahead, which stays where it is. -/
def peek (offset : Nat) (s : Lookahead) : Answer Lexeme × Lookahead :=
  match s.fill (offset + 1) with
  | (.error why, s) => (.error why, s)
  | (.ok _, s) =>
      match s.held[offset]? with
      | some l => (.ok l, s)
      | none => (.error (.notEnoughTokens (offset + 1) s.held.length), s)

/-- Takes the next `n` tokens, or none of them when there are fewer. -/
def take (n : Nat) (s : Lookahead) : Answer (List Lexeme) × Lookahead :=
  match s.fill n with
  | (.error why, s) => (.error why, s)
  | (.ok true, s) => (.ok (s.held.take n), { s with held := s.held.drop n })
  | (.ok false, s) => (.error (.notEnoughTokens n s.held.length), s)

/-- Takes the next token, if the source has one. -/
def next? (s : Lookahead) : Answer (Option Lexeme) × Lookahead :=
  match s.fill 1 with
  | (.error why, s) => (.error why, s)
  | (.ok _, s) =>
      match s.held with
      | [] => (.ok none, s)
      | l :: held => (.ok (some l), { s with held := held })

/-- Takes the next token, and fails at the end of the source. -/
def takeOne (s : Lookahead) : Answer Lexeme × Lookahead :=
  match s.next? with
  | (.error why, s) => (.error why, s)
  | (.ok (some l), s) => (.ok l, s)
  | (.ok none, s) => (.error (.notEnoughTokens 1 0), s)

/-- No more tokens than this can be left: those that are held, and one for each character. -/
def tokensAtMost (s : Lookahead) : Nat :=
  s.held.length + s.cursor.charsLeft

/-- Takes all tokens that are left.  On a failure the tokens taken before it are gone. -/
def takeAll (s : Lookahead) : Answer (List Lexeme) × Lookahead :=
  let feed := s.cursor.feed
  match feed.cut with
  | none => (.ok (s.held ++ feed.lexemes), ⟨[], feed.after⟩)
  | some why => (.error why, ⟨[], feed.after⟩)

end Lookahead

end LoopFree
