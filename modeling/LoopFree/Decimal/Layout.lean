/-
Floats in writing.

The digits of a finite float are the shortest that read back.  Where the point goes and
how an exponent is written is up to the format, a `Layout`.
-/
import LoopFree.Decimal.Shortest

namespace LoopFree

/-- How a format writes floats. -/
structure Layout where
  /-- The text of what is no number. -/
  notANumber : String
  /-- The text of infinity. -/
  infinity : String
  /-- The least exponent of the first digit for which no exponent is written. -/
  leastPlain : Int
  /-- The greatest exponent of the first digit for which no exponent is written. -/
  greatestPlain : Int
  /-- What stands before an exponent that is not negative. -/
  plus : String
  /-- The least number of digits of an exponent. -/
  exponentWidth : Nat
deriving Repr, DecidableEq

namespace Layout

/-- Digits with a point and no exponent, the first digit at `10 ^ lead`.  There is at
least one digit on either side of the point. -/
def plain (digits : List Char) (lead : Int) : List Char :=
  if lead < 0 then
    '0' :: '.' :: (List.replicate (-lead - 1).toNat '0' ++ digits)
  else
    let n := lead.toNat + 1
    let fraction := digits.drop n
    digits.take n ++ List.replicate (n - digits.length) '0' ++
      '.' :: (if fraction.isEmpty then ['0'] else fraction)

/-- The digits of an exponent, with zeros in front up to the format's width. -/
def exponentDigits (f : Layout) (e : Nat) : List Char :=
  let digits := Nat.toDigits 10 e
  List.replicate (f.exponentWidth - digits.length) '0' ++ digits

/-- Digits with the point after the first one, and the exponent of that one. -/
def scientific (f : Layout) (digits : List Char) (lead : Int) : List Char :=
  let fraction := digits.drop 1
  digits.take 1 ++ (if fraction.isEmpty then [] else '.' :: fraction) ++
    'e' :: ((if lead < 0 then ['-'] else f.plus.toList) ++ f.exponentDigits lead.natAbs)

/-- The text of a positive decimal. -/
def ofDecimal (f : Layout) (d : Decimal) : List Char :=
  let digits := Nat.toDigits 10 d.digits
  let lead := d.exponent + digits.length - 1
  if f.leastPlain ≤ lead ∧ lead ≤ f.greatestPlain then plain digits lead
  else f.scientific digits lead

/-- The text of the float at an index. -/
def ofIndex (f : Layout) (n : Nat) : List Char :=
  if Binary64.infinityIndex < n then f.notANumber.toList
  else if n = Binary64.infinityIndex then f.infinity.toList
  else if n = 0 then ['0', '.', '0']
  else f.ofDecimal (Decimal.shortest n)

/-- The text of a float.  What is no number has no sign. -/
def text (f : Layout) (x : Float) : String :=
  let n := Binary64.index x
  if Binary64.isNegative x ∧ n ≤ Binary64.infinityIndex then
    String.ofList ('-' :: f.ofIndex n)
  else
    String.ofList (f.ofIndex n)

end Layout

end LoopFree
