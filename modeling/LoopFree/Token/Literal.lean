/-
Number literals.

A literal is digits, perhaps with a point and more digits after them, or a point and
digits; then perhaps an exponent.  Only ASCII digits count.  A point or an exponent makes
the literal a float.  An `e` after a mantissa always begins an exponent: one without
digits is an error and not the start of a word.
-/
import LoopFree.Token.Basic

namespace LoopFree

/-- The part of a literal before its exponent, and what follows it. -/
structure Mantissa where
  text : List Char
  hasPoint : Bool
  rest : List Char
deriving Repr, DecidableEq

/-- The mantissa at the head of a text, where a literal starts there. -/
def takeMantissa (cs : List Char) : Option Mantissa :=
  let whole := cs.takeWhile Char.isDigit
  if whole.isEmpty then
    match cs with
    | '.' :: after =>
        let fraction := after.takeWhile Char.isDigit
        if fraction.isEmpty then none
        else some ⟨'.' :: fraction, true, after.dropWhile Char.isDigit⟩
    | _ => none
  else
    match cs.dropWhile Char.isDigit with
    | '.' :: after =>
        some ⟨whole ++ '.' :: after.takeWhile Char.isDigit, true, after.dropWhile Char.isDigit⟩
    | rest => some ⟨whole, false, rest⟩

/-- The sign at the head of a text, if one stands there, and what follows it. -/
def takeSign : List Char → List Char × List Char
  | c :: rest => if c == '+' || c == '-' then ([c], rest) else ([], c :: rest)
  | [] => ([], [])

/-- What stands after a mantissa. -/
inductive Exponent
  /-- No exponent begins here. -/
  | absent
  /-- An exponent, its text and what follows it. -/
  | present (text rest : List Char)
  /-- The mark of an exponent, perhaps a sign, and then no digit. -/
  | malformed (text : List Char)
deriving Repr, DecidableEq

/-- The exponent at the head of a text. -/
def takeExponent : List Char → Exponent
  | [] => .absent
  | e :: after =>
      if e == 'e' || e == 'E' then
        let (sign, rest) := takeSign after
        let digits := rest.takeWhile Char.isDigit
        if digits.isEmpty then .malformed (e :: sign)
        else .present (e :: (sign ++ digits)) (rest.dropWhile Char.isDigit)
      else
        .absent

/-- What a text makes when a number literal is looked for at its head. -/
inductive LiteralScan
  /-- No literal starts here. -/
  | absent
  /-- A literal and what follows it. -/
  | literal (token : Token) (rest : List Char)
  /-- A literal whose exponent has no digits. -/
  | malformed (text : List Char)
deriving Repr, DecidableEq

/-- The number literal at the head of a text. -/
def takeLiteral (cs : List Char) : LiteralScan :=
  match takeMantissa cs with
  | none => .absent
  | some m =>
      match takeExponent m.rest with
      | .absent =>
          let text := String.ofList m.text
          .literal (if m.hasPoint then .float text else .integer text) m.rest
      | .present e rest => .literal (.float (String.ofList (m.text ++ e))) rest
      | .malformed e => .malformed (m.text ++ e)

end LoopFree
