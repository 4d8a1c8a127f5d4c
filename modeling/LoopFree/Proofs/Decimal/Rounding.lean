/-
Rounding decimals.

Rounding depends on the value alone: a fraction may be extended, and zeros may be moved
between the digits of a decimal and its exponent.  `Decimal.nearest` answers at once where
the exponent is extreme; `nearest_eq` says that the answer there is the one that rounding
the exact fraction would give.

From that follows what the search for a float's digits needs.  What it tries it keeps
only where that reads back, its last resort is the exact value, and trimming zeros keeps
the value; so the digits it ends with read back as the float.
-/
import LoopFree.Decimal.Shortest

namespace LoopFree

namespace Binary64

/-! ### Fractions of the same value

A fraction is rounded without being reduced, and its digits are counted on the way.  That only its
value matters in the end is what allows digits to be moved into the exponent and out of it.
-/

private theorem divRound_mul (num den : Nat) {c : Nat} (hc : 0 < c) :
    divRound (num * c) (den * c) = divRound num den := by
  have hlow : 2 * (num % den * c) < den * c ↔ 2 * (num % den) < den := by
    rw [← Nat.mul_assoc]
    exact Nat.mul_lt_mul_right hc
  have hhigh : den * c < 2 * (num % den * c) ↔ den < 2 * (num % den) := by
    rw [← Nat.mul_assoc]
    exact Nat.mul_lt_mul_right hc
  simp only [divRound, Nat.mul_div_mul_right _ _ hc, Nat.mul_mod_mul_right, hlow, hhigh]

/-- An extended fraction is rounded as before. -/
theorem nearest_mul (num den : Nat) {c : Nat} (hc : 0 < c) :
    nearest (num * c) (den * c) = nearest num den := by
  unfold nearest
  simp only [Nat.mul_div_mul_right _ _ hc]
  rw [Nat.mul_right_comm den c, divRound_mul _ _ hc]

/-- **Fractions of the same value are rounded alike.** -/
theorem nearest_congr {num den num' den' : Nat} (hden : 0 < den) (hden' : 0 < den')
    (h : num * den' = num' * den) : nearest num den = nearest num' den' := by
  rw [← nearest_mul num den hden', h, Nat.mul_comm den den', nearest_mul num' den' hden]

/-! ### Fractions far from the ladder

An exponent may be so great, or so small, that nobody would compute the fraction.  What becomes of
it is told without doing so, and here that is seen to be what rounding would come to.
-/

/-- Less than half a unit rounds to zero. -/
theorem nearest_of_small {num den : Nat} (h : 2 * num < den) : nearest num den = 0 := by
  have hdiv : num / den = 0 := Nat.div_eq_of_lt (by omega)
  have hmod : num % den = num := Nat.mod_eq_of_lt (by omega)
  simp [nearest, divRound, hdiv, hmod, h]

/-- What lies past the greatest finite float rounds to infinity. -/
theorem nearest_of_large {w : Nat} (h : 2047 + 52 ≤ w.log2) : nearest w 1 = infinityIndex := by
  unfold nearest
  rw [Nat.div_one]
  apply Nat.min_eq_right
  have hinf : infinityIndex = 2047 * 2 ^ 52 := rfl
  have hle : 2047 * 2 ^ 52 ≤ (w.log2 - 52) * 2 ^ 52 := Nat.mul_le_mul_right _ (by omega)
  omega

end Binary64

namespace Decimal

/-! ### The value decides -/

private theorem denominator_pos (d : Decimal) : 0 < d.denominator :=
  Nat.pow_pos (by decide)

private theorem two_pow_le_ten_pow {k n : Nat} (h : 62 * k ≤ n) : 2 ^ (205 * k) ≤ 10 ^ n := by
  refine Nat.le_trans ?_ (Nat.pow_le_pow_right (by decide) h)
  rw [Nat.pow_mul, Nat.pow_mul]
  exact Nat.pow_le_pow_left (by decide +kernel) k

/-- The numerator of a decimal has the binary digits of its power of ten, and those of the
unit. -/
theorem le_log2_numerator {d : Decimal} {k : Nat} (h0 : d.digits ≠ 0)
    (h : 62 * k ≤ d.exponent.toNat) : 205 * k + Binary64.unitPower ≤ d.numerator.log2 := by
  have hone := Nat.le_mul_of_pos_left (10 ^ d.exponent.toNat) (Nat.pos_of_ne_zero h0)
  have htwo := Nat.le_trans (two_pow_le_ten_pow h) hone
  have hle : 2 ^ (205 * k + Binary64.unitPower) ≤ d.numerator := by
    rw [Nat.pow_add, numerator]
    exact Nat.mul_le_mul_right _ htwo
  have hne : d.numerator ≠ 0 := Nat.ne_of_gt (Nat.lt_of_lt_of_le (Nat.two_pow_pos _) hle)
  exact (Nat.le_log2 hne).mpr hle

/-- A decimal with so few digits before so small a power of ten is less than half a unit. -/
theorem numerator_of_small {d : Decimal} (h : d.exponent * 3 + d.digits.log2 + 1 < -1074) :
    2 * d.numerator < d.denominator := by
  obtain ⟨k, hk⟩ : ∃ k : Nat, d.exponent = -k := ⟨(-d.exponent).toNat, by omega⟩
  obtain ⟨b, hb⟩ : ∃ b, d.digits.log2 + 1 = b := ⟨_, rfl⟩
  have hexp : d.exponent.toNat = 0 := by omega
  have hneg : (-d.exponent).toNat = k := by omega
  have hdigits : d.digits < 2 ^ b := by
    rw [← hb]
    exact Nat.lt_log2_self
  have hpow : b + (1 + Binary64.unitPower) ≤ 3 * k := by
    simp only [Binary64.unitPower]
    omega
  have height : 2 ^ (3 * k) ≤ 10 ^ k := by
    rw [Nat.pow_mul]
    exact Nat.pow_le_pow_left (by decide) k
  calc 2 * d.numerator = d.digits * 2 ^ (1 + Binary64.unitPower) := by
        rw [numerator, hexp, Nat.pow_zero, Nat.mul_one, Nat.pow_add, Nat.pow_one,
          Nat.mul_left_comm]
    _ < 2 ^ b * 2 ^ (1 + Binary64.unitPower) :=
        Nat.mul_lt_mul_of_pos_right hdigits (Nat.two_pow_pos _)
    _ = 2 ^ (b + (1 + Binary64.unitPower)) := (Nat.pow_add _ _ _).symm
    _ ≤ 2 ^ (3 * k) := Nat.pow_le_pow_right (by decide) hpow
    _ ≤ d.denominator := by rw [denominator, hneg]; exact height

/-- **A decimal rounds as the fraction it is**, however extreme its exponent. -/
theorem nearest_eq (d : Decimal) : d.nearest = Binary64.nearest d.numerator d.denominator := by
  unfold nearest
  by_cases h0 : d.digits = 0
  · rw [if_pos h0, numerator, h0, Nat.zero_mul, Nat.zero_mul]
    exact (Binary64.nearest_of_small d.denominator_pos).symm
  · rw [if_neg h0]
    split
    · rename_i hlarge
      have hden : d.denominator = 1 := by
        rw [denominator]
        have : (-d.exponent).toNat = 0 := by omega
        rw [this, Nat.pow_zero]
      have hlog := le_log2_numerator (k := 5) h0 (by omega)
      rw [hden]
      exact (Binary64.nearest_of_large (Nat.le_trans (by decide) hlog)).symm
    · split
      · rename_i hsmall
        exact (Binary64.nearest_of_small (numerator_of_small hsmall)).symm
      · rfl

/-- Zeros may be moved from the exponent to the digits. -/
theorem nearest_shift (m : Nat) (e : Int) (k : Nat) :
    (⟨m * 10 ^ k, e - k⟩ : Decimal).nearest = (⟨m, e⟩ : Decimal).nearest := by
  rw [nearest_eq, nearest_eq]
  apply Binary64.nearest_congr (denominator_pos _) (denominator_pos _)
  have hpow : 10 ^ k * 10 ^ (e - k).toNat * 10 ^ (-e).toNat
      = 10 ^ e.toNat * 10 ^ (-(e - k)).toNat := by
    rw [← Nat.pow_add, ← Nat.pow_add, ← Nat.pow_add]
    congr 1
    omega
  simp only [numerator, denominator]
  generalize 2 ^ Binary64.unitPower = u
  calc m * 10 ^ k * 10 ^ (e - k).toNat * u * 10 ^ (-e).toNat
      = m * (10 ^ k * 10 ^ (e - k).toNat * 10 ^ (-e).toNat) * u := by ac_rfl
    _ = m * (10 ^ e.toNat * 10 ^ (-(e - k)).toNat) * u := by rw [hpow]
    _ = m * 10 ^ e.toNat * u * 10 ^ (-(e - k)).toNat := by ac_rfl

/-! ### The digits of a float

Which digits are found, and that they are the fewest, is no matter here.  Every grid is given up
if its digits do not round to the float, and behind the last grid there is the exact value.
-/

private theorem nearest_trimUpTo (fuel : Nat) :
    ∀ d : Decimal, (trimUpTo fuel d).nearest = d.nearest := by
  induction fuel with
  | zero => intro d; rfl
  | succ fuel ih =>
      intro d
      rw [trimUpTo]
      split
      · rename_i hzero
        have hdigits : d.digits = d.digits / 10 * 10 ^ 1 := by omega
        have hexponent : d.exponent + 1 - (1 : Nat) = d.exponent := by omega
        have hshift := nearest_shift (d.digits / 10) (d.exponent + 1) 1
        rw [← hdigits, hexponent] at hshift
        rw [ih, ← hshift]
      · rfl

private theorem nearest_trim (d : Decimal) : d.trim.nearest = d.nearest :=
  nearest_trimUpTo _ d

/-- The exact value of a float rounds to it. -/
theorem nearest_exact {n : Nat} (h : n ≤ Binary64.infinityIndex) : (exact n).nearest = n := by
  have hup : (-(Binary64.unitPower : Int)).toNat = 0 := by omega
  have hdown : (- -(Binary64.unitPower : Int)).toNat = Binary64.unitPower := by omega
  have hten : 10 = 5 * 2 := rfl
  rw [nearest_eq]
  simp only [numerator, denominator, exact, hup, hdown, Nat.pow_zero, Nat.mul_one]
  rw [hten, Nat.mul_pow, Nat.mul_assoc]
  have hpos : 0 < 5 ^ Binary64.unitPower * 2 ^ Binary64.unitPower :=
    Nat.mul_pos (Nat.pow_pos (by decide)) (Nat.two_pow_pos _)
  have hmul := Binary64.nearest_mul (Binary64.units n) 1 hpos
  rw [Nat.one_mul] at hmul
  rw [hmul, Binary64.nearest_units h]

private theorem nearest_of_onGrid? {n : Nat} {e : Int} {d : Decimal} (h : onGrid? n e = some d) :
    d.nearest = n := by
  unfold onGrid? at h
  obtain ⟨low, high, lowNearer⟩ := neighbours (Binary64.units n) e
  simp only at h
  split at h
  · rename_i hlow hhigh
    rw [← Option.some.inj h]
    split
    · exact beq_iff_eq.mp hlow
    · exact beq_iff_eq.mp hhigh
  · rename_i hlow hhigh
    rw [← Option.some.inj h]
    exact beq_iff_eq.mp hlow
  · rename_i hlow hhigh
    rw [← Option.some.inj h]
    exact beq_iff_eq.mp hhigh
  · simp at h

/-- Whatever grids are tried, what is found reads back. -/
theorem nearest_searchFrom {n : Nat} (h : n ≤ Binary64.infinityIndex) (fuel : Nat) :
    ∀ e : Int, (searchFrom n fuel e).nearest = n := by
  induction fuel with
  | zero =>
      intro e
      simp only [searchFrom, nearest_exact h]
  | succ fuel ih =>
      intro e
      rw [searchFrom]
      split
      · rename_i d hd
        exact nearest_of_onGrid? hd
      · exact ih (e - 1)

/-- **The shortest digits of a float read back as the float.** -/
theorem nearest_shortest {n : Nat} (h : n ≤ Binary64.infinityIndex) :
    (shortest n).nearest = n := by
  rw [shortest, nearest_trim, nearest_searchFrom h]

end Decimal

end LoopFree
