/-
Decimal numbers and the floats nearest to them.

A decimal is a natural number of digits times a power of ten.  `nearest` is the index of
the float that a decimal rounds to.  It answers at once where the power of ten is so large
or so small that infinity or zero is certain, and so never raises ten to a power that the
text alone chose.
-/
import LoopFree.Binary64

namespace LoopFree

/-- The number `digits * 10 ^ exponent`. -/
structure Decimal where
  digits : Nat
  exponent : Int
deriving Repr, DecidableEq

namespace Decimal

/-- The numerator of a decimal, counted in units of the least positive float. -/
def numerator (d : Decimal) : Nat :=
  d.digits * 10 ^ d.exponent.toNat * 2 ^ Binary64.unitPower

/-- The denominator of a decimal. -/
def denominator (d : Decimal) : Nat :=
  10 ^ (-d.exponent).toNat

/-- The index of the float that a decimal rounds to.  From `10 ^ 310` on that is infinity,
and below half a unit it is zero. -/
def nearest (d : Decimal) : Nat :=
  if d.digits = 0 then 0
  else if 310 ≤ d.exponent then Binary64.infinityIndex
  else if d.exponent * 3 + d.digits.log2 + 1 < -1074 then 0
  else Binary64.nearest d.numerator d.denominator

theorem nearest_le (d : Decimal) : d.nearest ≤ Binary64.infinityIndex := by
  unfold nearest
  split
  · exact Nat.zero_le _
  · split
    · exact Nat.le_refl _
    · split
      · exact Nat.zero_le _
      · exact Binary64.nearest_le _ _

/-- The float that a decimal rounds to. -/
def toFloat (d : Decimal) : Float :=
  Binary64.ofIndex d.nearest d.nearest_le

/-- The number of decimal digits. -/
def width (n : Nat) : Nat :=
  (Nat.toDigits 10 n).length

/-- Drops zeros from the end of the digits, at most `fuel` of them. -/
def trimUpTo : Nat → Decimal → Decimal
  | 0, d => d
  | fuel + 1, d =>
      if d.digits % 10 = 0 then trimUpTo fuel ⟨d.digits / 10, d.exponent + 1⟩ else d

/-- The same number without zeros at the end of the digits. -/
def trim (d : Decimal) : Decimal :=
  trimUpTo (width d.digits - 1) d

end Decimal

/-- The float nearest to a whole number. -/
def Binary64.ofInt (n : Int) : Float :=
  let x := (⟨n.natAbs, 0⟩ : Decimal).toFloat
  if n < 0 then -x else x

end LoopFree
