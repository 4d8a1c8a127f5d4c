/-
One token at the head of a text.

Operators are tried first, then words, then number literals.  A text that starts with
none of them is refused at its first character, and one that starts with a literal whose
exponent has no digits is refused as a whole.
-/
import LoopFree.Token.Table
import LoopFree.Token.Literal

namespace LoopFree

/-- What stands at the head of a text that starts with no blank. -/
inductive Scan
  /-- A token and what follows it. -/
  | token (t : Token) (rest : List Char)
  /-- A character that starts no token. -/
  | unexpected (c : Char)
  /-- A literal whose exponent has no digits. -/
  | malformed (literal : String)
  /-- Nothing at all. -/
  | nothing
deriving Repr, DecidableEq

/-- The token that a word is. -/
def Token.ofWord (word : String) : Token :=
  (keyword? word).getD (.identifier word)

/-- Scans the token at the head of a text. -/
def scan (cs : List Char) : Scan :=
  match operator? cs with
  | some (s, t) => .token t (cs.drop s.toList.length)
  | none =>
      match takeWord cs with
      | some (word, rest) => .token (.ofWord (String.ofList word)) rest
      | none =>
          match takeLiteral cs with
          | .literal t rest => .token t rest
          | .malformed text => .malformed (String.ofList text)
          | .absent =>
              match cs with
              | c :: _ => .unexpected c
              | [] => .nothing

end LoopFree
