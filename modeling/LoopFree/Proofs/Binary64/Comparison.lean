/-
Floats that compare equal.

The library says which floats compare equal: no float that is no number, and else a float
and itself, or the two zeros.  What is left is to say the same with the index.  A float
above infinity is no number, of which there is one; and the floats at the foot of the
ladder are the zeros.
-/
import Mathlib
import LoopFree.Binary64

namespace LoopFree.Binary64

open Float.Model (Format)
open Float.Model.UnpackedFloat (unpackExponent unpackMantissa packedNaN)

/-! ### The parts of a bit pattern

What the library says of the exponent and the mantissa as bit vectors is said here of numbers.
Together they are the index, and beside the index a float has nothing but its sign.
-/

section Parts

variable {b : BitVec Format.binary64.numBits}

theorem unpackMantissa_toNat : (unpackMantissa b).toNat = b.toNat % 2 ^ 52 := by
  simp [unpackMantissa, BitVec.extractLsb, BitVec.extractLsb'_toNat]

theorem unpackExponent_toNat : (unpackExponent b).toNat = b.toNat / 2 ^ 52 % 2 ^ 11 := by
  simp [unpackExponent, BitVec.extractLsb, BitVec.extractLsb'_toNat, Nat.shiftRight_eq_div_pow]

/-- A valid bit pattern above infinity is the one of no number. -/
theorem eq_packedNaN (hvalid : Format.binary64.Valid b) (h : infinityIndex < b.toNat % 2 ^ 63) :
    b = packedNaN Format.binary64 := by
  have hinf : infinityIndex = 2047 * 2 ^ 52 := rfl
  refine hvalid.eq_packedNaN ?_ ?_
  · apply BitVec.eq_of_toNat_eq
    rw [unpackExponent_toNat]
    show b.toNat / 2 ^ 52 % 2 ^ 11 = 2047
    omega
  · intro h0
    have hzero := congrArg BitVec.toNat h0
    rw [unpackMantissa_toNat, BitVec.toNat_ofNat, Nat.zero_mod] at hzero
    omega

end Parts

/-- A float is known by its sign and its index. -/
theorem ext {x y : Float} (hsign : isNegative x = isNegative y) (hindex : index x = index y) :
    x = y := by
  have hx : x.toBits.toNat < 2 ^ 64 := x.toBits.toNat_lt
  have hy : y.toBits.toNat < 2 ^ 64 := y.toBits.toNat_lt
  have hhalf := decide_eq_decide.mp hsign
  simp only [index] at hindex
  apply Float.toBits_inj.mp
  apply UInt64.toNat.inj
  omega

/-! ### Comparing

Equal floats need not be the same: there are two zeros, and what is no number is not equal to
itself.  Trees are compared with their floats in them, so it has to be known that this is all.
-/

/-- Above infinity stands the one float that is no number. -/
theorem eq_nan_iff {x : Float} : x = Float.nan ↔ infinityIndex < index x := by
  have hbits : x = Float.nan ↔ x.toBits.toBitVec = packedNaN Format.binary64 := by
    rw [← Float.toBits_inj, ← UInt64.toBitVec_inj]
    exact Iff.rfl
  rw [hbits]
  constructor
  · intro h
    show infinityIndex < x.toBits.toBitVec.toNat % 2 ^ 63
    rw [h]
    decide
  · exact eq_packedNaN x.toModel.valid

theorem ne_nan_iff {x : Float} : x ≠ Float.nan ↔ index x ≤ infinityIndex := by
  rw [Ne, eq_nan_iff, Nat.not_lt]

/-- The two zeros stand at the foot of the ladder, and nothing else. -/
theorem index_eq_zero_iff {x : Float} : index x = 0 ↔ x = 0 ∨ x = -0 := by
  constructor
  · intro h
    cases hsign : isNegative x with
    | false => exact Or.inl (ext (hsign.trans rfl) (h.trans rfl))
    | true => exact Or.inr (ext (hsign.trans rfl) (h.trans rfl))
  · rintro (rfl | rfl) <;> rfl

/-- **Floats compare equal when both are numbers and they are the same or both zeros.** -/
theorem beq_iff (x y : Float) :
    (x == y) = true ↔ index x ≤ infinityIndex ∧ index y ≤ infinityIndex ∧
      (x = y ∨ index x = 0 ∧ index y = 0) := by
  rw [Float.beq_iff_ne_nan_and_eq, ne_nan_iff, ne_nan_iff, index_eq_zero_iff, index_eq_zero_iff]
  refine and_congr_right fun _ => and_congr_right fun _ => ⟨?_, ?_⟩
  · rintro (h | ⟨hx, hy⟩ | ⟨hx, hy⟩)
    · exact Or.inl h
    · exact Or.inr ⟨Or.inl hx, Or.inr hy⟩
    · exact Or.inr ⟨Or.inr hx, Or.inl hy⟩
  · rintro (h | ⟨hx | hx, hy | hy⟩)
    · exact Or.inl h
    · exact Or.inl (hx.trans hy.symm)
    · exact Or.inr (Or.inl ⟨hx, hy⟩)
    · exact Or.inr (Or.inr ⟨hx, hy⟩)
    · exact Or.inl (hx.trans hy.symm)

/-! ### The floats of the ladder -/

/-- The float is a number, and its sign bit is clear. -/
def IsUnsigned (x : Float) : Prop :=
  isNegative x = false ∧ index x ≤ infinityIndex

private theorem toBits_ofIndex {n : Nat} (h : n ≤ infinityIndex) : (ofIndex n h).toBits.toNat = n :=
  UInt64.toNat_ofNat_of_lt' (Nat.lt_of_le_of_lt h (by decide))

theorem index_ofIndex {n : Nat} (h : n ≤ infinityIndex) : index (ofIndex n h) = n := by
  have hinf : infinityIndex = 2047 * 2 ^ 52 := rfl
  rw [index, toBits_ofIndex]
  omega

/-- A float on the ladder is a number without a sign. -/
theorem isUnsigned_ofIndex {n : Nat} (h : n ≤ infinityIndex) : IsUnsigned (ofIndex n h) := by
  have hinf : infinityIndex = 2047 * 2 ^ 52 := rfl
  refine ⟨?_, ?_⟩
  · rw [isNegative, toBits_ofIndex, decide_eq_false_iff_not]
    omega
  · rw [index_ofIndex]
    exact h

end LoopFree.Binary64
