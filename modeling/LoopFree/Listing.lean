/-
The token listing: the name of every token's kind, one to a line.

A listing takes one token after another from a look-ahead and writes its line at once, so the
lines of the tokens before a failure have been written when it is met.  `Source.listing` says what
that comes to on a sink that takes everything.
-/
import LoopFree.Run
import LoopFree.Token.Lookahead

namespace LoopFree

/-- The line of a listing that shows a token. -/
def Lexeme.listingLine (l : Lexeme) : String :=
  l.token.kind.name ++ "\n"

/-- A token listing: what was written, and the failure that ended it early, if one did. -/
structure Listing where
  text : String
  cut : Option LexError
deriving Repr, DecidableEq

/-- Lists the tokens of a source up to the first failure. -/
def Source.listing (s : Source) : Listing :=
  ⟨String.join (s.feed.lexemes.map Lexeme.listingLine), s.feed.cut⟩

/-- Why a listing was not written to its end. -/
inductive ListingFailure
  /-- The source could not be cut into tokens. -/
  | lexical (why : LexError)
  /-- A line could not be written. -/
  | output (why : SinkFailure)
deriving Repr, DecidableEq

/-- The failure in words. -/
def ListingFailure.message : ListingFailure → String
  | lexical why => (Failure.lexical why).message
  | output why => why.message

/-- Takes tokens and writes their lines, at most so many, and flushes the sink at the end. -/
def Lookahead.writeTokens : Nat → Lookahead → Sink → Sink × Option ListingFailure
  | 0, _, out => (out, none)
  | rounds + 1, s, out =>
      match s.next? with
      | (.error why, _) => (out, some (.lexical why))
      | (.ok none, _) => (out, out.flush.map .output)
      | (.ok (some l), s) =>
          match out.write l.listingLine with
          | (out, none) => writeTokens rounds s out
          | (out, some why) => (out, some (.output why))

/-- Writes the listing of a source.  Every round takes a token, so there are rounds enough. -/
def Source.writeTokens (s : Source) (out : Sink) : Sink × Option ListingFailure :=
  match Lookahead.open? s with
  | .error why => (out, some (.lexical why))
  | .ok start => start.writeTokens (start.tokensAtMost + 1) out

end LoopFree
