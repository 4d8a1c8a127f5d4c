/-
Binary64 floats and the exact values they stand for.

The floats that are not negative form a ladder: zero, the least positive one, and so on
up to the greatest finite one, with infinity above it.  The number of a float on that
ladder, its index, is its bit pattern read as a number.  All finite floats are whole
multiples of the least positive one, which is the unit here: `units n` is the value at
index `n` in that unit, so every comparison of a float with a fraction is one of natural
numbers.

`nearest` rounds a fraction of units to the ladder: to the nearest index, and from half
way to the even one.  `nearest_units` says that a value on the ladder rounds to itself.
-/

-- Powers of numbers are the core library's, whatever a module imports beside this one.
attribute [instance (high), default_instance (high + 1)] instPowNat

namespace LoopFree.Binary64

/-- The index of infinity: one above the greatest finite float. -/
def infinityIndex : Nat := 2047 * 2 ^ 52

/-- The unit is `2` to the minus this power. -/
def unitPower : Nat := 1074

/-- The value at an index, in units.  Below `2 ^ 52` the steps are one unit each, and from
there on they double with every `2 ^ 52` indices.  At infinity the ladder goes on as if
the exponent had room. -/
def units (n : Nat) : Nat :=
  if n < 2 ^ 52 then n else (2 ^ 52 + n % 2 ^ 52) * 2 ^ (n / 2 ^ 52 - 1)

/-- A quotient rounded to the nearest whole number, from half way to the even one. -/
def divRound (num den : Nat) : Nat :=
  let q := num / den
  let r := num % den
  if 2 * r < den then q
  else if den < 2 * r then q + 1
  else q + q % 2

/-- The index nearest to `num / den` units, from half way the even one.  The whole part
tells how wide the steps are there; past the greatest finite float it is infinity. -/
def nearest (num den : Nat) : Nat :=
  let e := (num / den).log2 - 52
  min (e * 2 ^ 52 + divRound num (den * 2 ^ e)) infinityIndex

theorem divRound_mul_right (q : Nat) {d : Nat} (h : 0 < d) : divRound (q * d) d = q := by
  simp [divRound, h]

/-- Below `2 ^ 53` the steps are one unit wide. -/
theorem log2_sub_eq_zero {w : Nat} (h : w < 2 ^ 53) : w.log2 - 52 = 0 := by
  by_cases h0 : w = 0
  · subst h0
    decide
  · have := (Nat.log2_lt h0).2 h
    omega

/-- From `2 ^ 52` on, the steps at a value are as wide as its excess of binary digits. -/
theorem log2_shifted {m e : Nat} (hlo : 2 ^ 52 ≤ m) (hhi : m < 2 ^ 53) :
    (m * 2 ^ e).log2 - 52 = e := by
  have hpos : 0 < 2 ^ e := Nat.two_pow_pos e
  have hne : m * 2 ^ e ≠ 0 := by
    have : 0 < m := Nat.lt_of_lt_of_le (by decide) hlo
    exact Nat.ne_of_gt (Nat.mul_pos this hpos)
  have hge : 52 + e ≤ (m * 2 ^ e).log2 := by
    rw [Nat.le_log2 hne, Nat.pow_add]
    exact Nat.mul_le_mul_right _ hlo
  have hlt : (m * 2 ^ e).log2 < 53 + e := by
    rw [Nat.log2_lt hne, Nat.pow_add]
    exact Nat.mul_lt_mul_of_pos_right hhi hpos
  omega

/-- The ladder's own values round to themselves. -/
theorem nearest_units {n : Nat} (h : n ≤ infinityIndex) : nearest (units n) 1 = n := by
  unfold nearest units
  simp only [Nat.div_one, Nat.one_mul]
  split
  · next hsmall =>
      have hlog : n.log2 - 52 = 0 := log2_sub_eq_zero (by omega)
      have hround : divRound n 1 = n := by
        have := divRound_mul_right n (d := 1) (by decide)
        simpa using this
      rw [hlog]
      simp only [Nat.zero_mul, Nat.zero_add, Nat.pow_zero, hround]
      exact Nat.min_eq_left h
  · next hbig =>
      have hlog := log2_shifted (m := 2 ^ 52 + n % 2 ^ 52) (e := n / 2 ^ 52 - 1)
        (by omega) (by omega)
      rw [hlog, divRound_mul_right _ (Nat.two_pow_pos _)]
      have hindex : (n / 2 ^ 52 - 1) * 2 ^ 52 + (2 ^ 52 + n % 2 ^ 52) = n := by omega
      rw [hindex]
      exact Nat.min_eq_left h

/-- An index is at most that of infinity. -/
theorem nearest_le (num den : Nat) : nearest num den ≤ infinityIndex :=
  Nat.min_le_right _ _

/-- The bits of an index are a valid bit pattern: only infinity has the greatest exponent. -/
theorem valid_of_le {n : Nat} (h : n ≤ infinityIndex) :
    Float.Model.Format.binary64.Valid (UInt64.ofNat n).toBitVec := by
  have hn : n < 2 ^ 64 := Nat.lt_of_le_of_lt h (by decide)
  refine ⟨fun hexp hman => absurd hman ?_⟩
  have hexp' := congrArg BitVec.toNat hexp
  simp [Float.Model.UnpackedFloat.unpackExponent, BitVec.extractLsb, BitVec.extractLsb'_toNat,
    Nat.shiftRight_eq_div_pow] at hexp'
  have hman' : n % 2 ^ 52 = 0 := by
    unfold infinityIndex at h
    omega
  apply not_not_intro
  apply BitVec.eq_of_toNat_eq
  simp [Float.Model.UnpackedFloat.unpackMantissa, BitVec.extractLsb, BitVec.extractLsb'_toNat]
  omega

/-- The float at an index. -/
def ofIndex (n : Nat) (h : n ≤ infinityIndex) : Float :=
  .ofModel ⟨UInt64.ofNat n, valid_of_le h⟩

/-- The sign bit is set. -/
def isNegative (x : Float) : Bool :=
  decide (2 ^ 63 ≤ x.toBits.toNat)

/-- The index of a float's absolute value; what is above infinity is no number. -/
def index (x : Float) : Nat :=
  x.toBits.toNat % 2 ^ 63

/-- A float is known by its bits. -/
theorem ofModel_eq {b b' : UInt64} {v : Float.Model.Format.binary64.Valid b.toBitVec}
    {v' : Float.Model.Format.binary64.Valid b'.toBitVec} (h : b = b') :
    Float.ofModel ⟨b, v⟩ = .ofModel ⟨b', v'⟩ := by
  subst h
  rfl

/-- A float whose sign bit is clear is the one at its index. -/
theorem ofIndex_index {x : Float} (hsign : isNegative x = false) (h : index x ≤ infinityIndex) :
    ofIndex (index x) h = x := by
  obtain ⟨⟨bits, valid⟩⟩ := x
  have hlt : bits.toNat < 2 ^ 63 := Nat.not_le.1 (of_decide_eq_false hsign)
  have hindex : index (.ofModel ⟨bits, valid⟩) = bits.toNat := Nat.mod_eq_of_lt hlt
  refine ofModel_eq ?_
  rw [hindex, UInt64.ofNat_toNat]

end LoopFree.Binary64
