/-
Number literals as numbers.

An integer literal is its digits in base ten.  A float literal is the float nearest to
the decimal it spells: the point moves the exponent down by the number of digits after
it.
-/
import LoopFree.Decimal.Basic
import LoopFree.Token.Literal

namespace LoopFree

/-- The number that digits spell in base ten. -/
def digitsValue (digits : List Char) : Nat :=
  Nat.ofDigitChars 10 digits 0

/-- The number that the text of an exponent spells, sign and mark included. -/
def exponentValue : List Char → Int
  | _ :: '-' :: digits => -(digitsValue digits : Int)
  | _ :: '+' :: digits => digitsValue digits
  | _ :: digits => digitsValue digits
  | [] => 0

/-- The decimal that a float literal spells. -/
def Decimal.ofLiteral (literal : List Char) : Decimal :=
  let mantissa := literal.takeWhile fun c => c.isDigit || c == '.'
  let exponent := literal.dropWhile fun c => c.isDigit || c == '.'
  let whole := mantissa.takeWhile Char.isDigit
  let fraction := (mantissa.dropWhile Char.isDigit).drop 1
  ⟨digitsValue (whole ++ fraction), exponentValue exponent - fraction.length⟩

/-- The float that a float literal stands for. -/
def floatOfLiteral (literal : String) : Float :=
  (Decimal.ofLiteral literal.toList).toFloat

/-- The integer that an integer literal stands for, if it is in range. -/
def intOfLiteral? (digits : String) : Option Int64 :=
  let n := digitsValue digits.toList
  if (n : Int) ≤ Int64.maxValue.toInt then some (Int64.ofNat n) else none

end LoopFree
