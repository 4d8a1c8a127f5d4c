/-
What counts as zero.

A float and the one with the other sign stand for the same place on the ladder, and so does its
absolute value; so what is zero is so with either sign.  And rounding takes no number but zero to
the foot of the ladder when the number is whole: one is far above half a unit.
-/
import LoopFree.Proofs.Binary64.Comparison
import LoopFree.Proofs.Decimal.Rounding

namespace LoopFree.Binary64

open Float.Model (Format)
open Float.Model.UnpackedFloat (unpackExponent unpackMantissa packComponents pack)

/-! ### The other sign

A sign is changed by unpacking a float and packing it again, and so it is taken away.  Whatever
kind of float it is, what stands below the sign comes out as it went in.
-/

/-- The bits below the sign are the exponent and the mantissa. -/
theorem magnitude_eq (b : BitVec Format.binary64.numBits) :
    b.toNat % 2 ^ 63 = (unpackExponent b).toNat * 2 ^ 52 + (unpackMantissa b).toNat := by
  rw [unpackExponent_toNat, unpackMantissa_toNat]
  omega

private theorem magnitude_packComponents (s s' : Float.Model.UnpackedFloat.Sign)
    (e : BitVec Format.binary64.exponentBits)
    (m : BitVec Format.binary64.mantissaBitsWithoutImplicit) :
    (packComponents Format.binary64 s e m).toNat % 2 ^ 63
      = (packComponents Format.binary64 s' e m).toNat % 2 ^ 63 := by
  simp only [magnitude_eq, Float.Model.UnpackedFloat.unpackExponent_packComponents,
    Float.Model.UnpackedFloat.unpackMantissa_packComponents]

private theorem magnitude_pack_finite (s s' : Float.Model.UnpackedFloat.Sign) {m : Nat} {e : Int}
    (hm : 0 < m) :
    (pack Format.binary64 (.finite s m e hm)).toNat % 2 ^ 63
      = (pack Format.binary64 (.finite s' m e hm)).toNat % 2 ^ 63 := by
  simp only [pack]
  split
  · exact magnitude_packComponents _ _ _ _
  · split <;> exact magnitude_packComponents _ _ _ _

private theorem magnitude_pack_neg (u : Float.Model.UnpackedFloat) :
    (pack Format.binary64 u.neg).toNat % 2 ^ 63 = (pack Format.binary64 u).toNat % 2 ^ 63 := by
  cases u with
  | notANumber => rfl
  | infinity s => exact magnitude_packComponents _ _ _ _
  | zero s => exact magnitude_packComponents _ _ _ _
  | finite s m e hm => exact magnitude_pack_finite _ _ hm

private theorem magnitude_pack_abs (u : Float.Model.UnpackedFloat) :
    (pack Format.binary64 u.abs).toNat % 2 ^ 63 = (pack Format.binary64 u).toNat % 2 ^ 63 := by
  cases u with
  | notANumber => rfl
  | infinity s => exact magnitude_packComponents _ _ _ _
  | zero s => exact magnitude_packComponents _ _ _ _
  | finite s m e hm => exact magnitude_pack_finite _ _ hm

/-- **A float keeps its place on the ladder when its sign changes.** -/
theorem index_neg (x : Float) : index (-x) = index x := by
  have hpack := magnitude_pack_neg x.toModel.unpack
  rw [Float.Model.unpack,
    Float.Model.UnpackedFloat.pack_unpack_of_valid x.toModel.valid] at hpack
  exact hpack

/-- So it does when its sign is taken away. -/
theorem index_abs (x : Float) : index x.abs = index x := by
  have hpack := magnitude_pack_abs x.toModel.unpack
  rw [Float.Model.unpack,
    Float.Model.UnpackedFloat.pack_unpack_of_valid x.toModel.valid] at hpack
  exact hpack

private theorem packComponents_positive_lt (e : BitVec Format.binary64.exponentBits)
    (m : BitVec Format.binary64.mantissaBitsWithoutImplicit) :
    (packComponents Format.binary64 .positive e m).toNat < 2 ^ 63 := by
  have hsign : (packComponents Format.binary64 .positive e m).toNat / 2 ^ 63 % 2 = 0 := by
    have hunpacked := congrArg BitVec.toNat
      (Float.Model.UnpackedFloat.unpackSign_packComponents .positive e m)
    simpa [Float.Model.UnpackedFloat.unpackSign, Float.Model.UnpackedFloat.Sign.toBitVec,
      BitVec.extractLsb, BitVec.extractLsb'_toNat, Nat.shiftRight_eq_div_pow] using hunpacked
  have hlt : (packComponents Format.binary64 .positive e m).toNat < 2 ^ 64 := BitVec.isLt _
  omega

theorem isNegative_abs (x : Float) : isNegative x.abs = false := by
  have hlt : (pack Format.binary64 x.toModel.unpack.abs).toNat < 2 ^ 63 := by
    cases x.toModel.unpack with
    | notANumber => decide
    | infinity s => exact packComponents_positive_lt _ _
    | zero s => exact packComponents_positive_lt _ _
    | finite s m e hm =>
        simp only [Float.Model.UnpackedFloat.abs, pack]
        split
        · exact packComponents_positive_lt _ _
        · split <;> exact packComponents_positive_lt _ _
  exact decide_eq_false (Nat.not_le.mpr hlt)

/-! ### Whole numbers

Two integers are divided as floats, and the divisor is compared with zero when it is a float
already.  That is as good as comparing the integer, since none but zero becomes a zero.
-/

/-- A whole number of units that is not zero does not round to zero. -/
theorem nearest_pos {w : Nat} (h : 0 < w) : 0 < nearest w 1 := by
  have hinf : 0 < infinityIndex := by decide
  rw [nearest, Nat.div_one, Nat.one_mul]
  refine Nat.lt_min.mpr ⟨?_, hinf⟩
  by_cases he : w.log2 - 52 = 0
  · have hround := divRound_mul_right w (d := 1) (by decide)
    rw [Nat.mul_one] at hround
    rw [he, Nat.pow_zero, hround, Nat.zero_mul, Nat.zero_add]
    exact h
  · exact Nat.add_pos_left (Nat.mul_pos (Nat.pos_of_ne_zero he) (Nat.two_pow_pos 52)) _

/-- A whole number becomes the float that its absolute value, counted in units, rounds to. -/
theorem index_ofInt (n : Int) : index (ofInt n) = nearest (n.natAbs * 2 ^ unitPower) 1 := by
  have hdecimal : (⟨n.natAbs, 0⟩ : Decimal).nearest = nearest (n.natAbs * 2 ^ unitPower) 1 := by
    rw [Decimal.nearest_eq, Decimal.numerator, Decimal.denominator]
    simp only [Int.toNat_zero, Int.neg_zero, Nat.pow_zero, Nat.mul_one]
  have hfloat := index_ofIndex (⟨n.natAbs, 0⟩ : Decimal).nearest_le
  rw [← hdecimal, ofInt]
  split
  · rw [index_neg]
    exact hfloat
  · exact hfloat

/-- **A whole number becomes a float that is zero only if it is zero.** -/
theorem index_ofInt_eq_zero_iff {n : Int} : index (ofInt n) = 0 ↔ n = 0 := by
  rw [index_ofInt]
  constructor
  · intro h0
    by_contra hn
    have hpos := nearest_pos (Nat.mul_pos (Int.natAbs_pos.mpr hn) (Nat.two_pow_pos unitPower))
    exact Nat.ne_of_gt hpos h0
  · rintro rfl
    rw [Int.natAbs_zero, Nat.zero_mul]
    decide

/-- A float compares equal to zero when it is one of the two zeros. -/
theorem beq_zero_iff (x : Float) : (x == 0) = true ↔ x = 0 ∨ x = -0 := by
  have hzero : index 0 = 0 := rfl
  have hinf : 0 ≤ infinityIndex := Nat.zero_le _
  rw [beq_iff, ← index_eq_zero_iff, hzero]
  constructor
  · rintro ⟨-, -, rfl | h⟩
    · exact hzero
    · exact h.1
  · intro h
    rw [h]
    exact ⟨hinf, hinf, Or.inr ⟨rfl, rfl⟩⟩

end LoopFree.Binary64
