/-
The shortest decimal that reads back as a given float.

For one digit, two digits and so on, the value's two neighbours on the grid of decimals
with that many digits are tried.  The first grid on which one of them rounds to the float
gives the answer; if both do, the nearer one, and from half way the upper one.  Seventeen
digits are always enough; the search ends with the exact value, which needs no test.
-/
import LoopFree.Decimal.Basic

namespace LoopFree.Decimal

/-- The exponent of ten of the first digit of the value `u` units, for a positive `u`. -/
def leadingExponent (u : Nat) : Int :=
  let one := 2 ^ Binary64.unitPower
  if one ≤ u then
    (width (u / one) : Int) - 1
  else
    let j := width (one / u)
    if one ≤ u * 10 ^ (j - 1) then 1 - (j : Int) else -(j : Int)

/-- The neighbours of `u` units among the multiples of `10 ^ e`, and whether the lower one
is nearer. -/
def neighbours (u : Nat) (e : Int) : Decimal × Decimal × Bool :=
  let num := u * 10 ^ (-e).toNat
  let den := 2 ^ Binary64.unitPower * 10 ^ e.toNat
  let low := num / den
  (⟨low, e⟩, ⟨low + 1, e⟩, decide (2 * (num % den) < den))

/-- The multiple of `10 ^ e` that is the shortest text of the float at index `n`, if one
of the two next to its value reads back. -/
def onGrid? (n : Nat) (e : Int) : Option Decimal :=
  let (low, high, lowNearer) := neighbours (Binary64.units n) e
  match low.nearest == n, high.nearest == n with
  | true, true => some (if lowNearer then low else high)
  | true, false => some low
  | false, true => some high
  | false, false => none

/-- The value at index `n`, to the last digit. -/
def exact (n : Nat) : Decimal :=
  ⟨Binary64.units n * 5 ^ Binary64.unitPower, -Binary64.unitPower⟩

/-- Tries the grids from `10 ^ e` down, at most `fuel` of them. -/
def searchFrom (n : Nat) : Nat → Int → Decimal
  | 0, _ => exact n
  | fuel + 1, e =>
      match onGrid? n e with
      | some d => d
      | none => searchFrom n fuel (e - 1)

/-- The shortest decimal that reads back as the float at index `n`, which is finite and
not zero. -/
def shortest (n : Nat) : Decimal :=
  (searchFrom n 17 (leadingExponent (Binary64.units n))).trim

end LoopFree.Decimal
