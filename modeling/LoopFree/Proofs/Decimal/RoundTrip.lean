/-
Written floats read back.

`Layout.ofDecimal` puts a point and perhaps an exponent among the digits of a decimal, and
`Decimal.ofLiteral` takes them apart again.  What comes out is the decimal that went in,
but for zeros that moved from its exponent to its digits; so both round to one float, and
with the shortest digits of a float that is the float itself.  The text is always the
spelling of one token.
-/
import LoopFree.Decimal.Layout
import LoopFree.Decimal.Reading
import LoopFree.Proofs.Binary64.Comparison
import LoopFree.Proofs.Decimal.Rounding
import LoopFree.Proofs.Token.Spelling
import LoopFree.Syntax.Printer

namespace LoopFree

/-! ### Digits -/

@[simp] theorem digitsValue_toDigits (n : Nat) : digitsValue (Nat.toDigits 10 n) = n :=
  Nat.ofDigitChars_ten_toDigits

private theorem digitsValue_zeros_append (k : Nat) (ds : List Char) :
    digitsValue (List.replicate k '0' ++ ds) = digitsValue ds := by
  rw [digitsValue, Nat.ofDigitChars_append, Nat.ofDigitChars_replicate_zero, Nat.mul_zero]
  rfl

private theorem digitsValue_append_zeros (ds : List Char) (k : Nat) :
    digitsValue (ds ++ List.replicate k '0') = digitsValue ds * 10 ^ k := by
  rw [digitsValue, Nat.ofDigitChars_append, Nat.ofDigitChars_replicate_zero, Nat.mul_comm]
  rfl

theorem isDigit_of_mem_toDigits {n : Nat} : ∀ c ∈ Nat.toDigits 10 n, c.isDigit = true :=
  fun _ hc => Nat.isDigit_of_mem_toDigits (by decide) (by decide) hc

private theorem isDigit_of_mem_zeros {k : Nat} : ∀ c ∈ List.replicate k '0', c.isDigit = true := by
  intro c hc
  rw [List.eq_of_mem_replicate hc]
  decide

/-! ### Literals taken apart

A literal is read from the left, in search of a point and of an exponent.  Where it is given in
parts the search is done, and its value is put together from those of the parts.
-/

namespace Decimal

/-- A literal is the decimal of its digits, with the point put back by its exponent. -/
theorem ofLiteral_append {whole point tail : List Char}
    (hwhole : ∀ c ∈ whole, c.isDigit = true) (hpoint : IsFraction point)
    (htail : ∀ c ∈ tail.head?, c.isDigit = false ∧ c ≠ '.') :
    ofLiteral (whole ++ point ++ tail)
      = ⟨digitsValue (whole ++ point.drop 1), exponentValue tail - (point.drop 1).length⟩ := by
  have hrun : ∀ c ∈ whole ++ point, (c.isDigit || c == '.') = true := by
    intro c hc
    rcases List.mem_append.mp hc with hc | hc
    · simp [hwhole c hc]
    · rcases hpoint with rfl | ⟨fraction, rfl, hfraction⟩
      · cases hc
      · rcases List.mem_cons.mp hc with rfl | hc
        · decide
        · simp [hfraction c hc]
  have hstop : ∀ c ∈ tail.head?, (c.isDigit || c == '.') = false := by
    intro c hc
    obtain ⟨hdigit, hdot⟩ := htail c hc
    simp [hdigit, hdot]
  have hends : ∀ c ∈ point.head?, c.isDigit = false := by
    rcases hpoint with rfl | ⟨fraction, rfl, hfraction⟩
    · simp
    · simp only [List.head?_cons, Option.mem_some_iff]
      rintro c rfl
      decide
  simp only [ofLiteral, takeWhile_append_stop hrun hstop, dropWhile_append_stop hrun hstop,
    takeWhile_append_stop hwhole hends, dropWhile_append_stop hwhole hends]

/-- The sign of an exponent counts, and no sign is as good as a plus. -/
theorem exponentValue_append {sign digits : List Char} (hsign : IsSign sign)
    (hdigits : ∀ c ∈ digits, c.isDigit = true) :
    exponentValue ('e' :: (sign ++ digits))
      = if sign = ['-'] then -(digitsValue digits : Int) else digitsValue digits := by
  rcases hsign with rfl | rfl | rfl
  · cases digits with
    | nil => rfl
    | cons d ds =>
        have hd := hdigits d (by simp)
        rw [if_neg (by simp), List.nil_append]
        unfold exponentValue
        split
        · rename_i heq
          cases heq
          cases hd
        · rename_i heq
          cases heq
          cases hd
        · rename_i heq
          cases heq
          rfl
        · rename_i heq
          cases heq
  · rfl
  · rfl

end Decimal

/-! ### Written decimals

There are two ways to write a decimal.  With an exponent its digits stay as they are.  Without one
they may be written with zeros behind them, so what is read back is another decimal; but it has
the same value, and that is what is rounded.
-/

namespace Layout

open Decimal

/-- The parts around the point of a text without an exponent.  The digits may have got
zeros behind them, which moves the point by as many places. -/
structure Parts (digits : List Char) (lead : Int) (whole fraction : List Char) (k : Nat) :
    Prop where
  ne_nil : whole ≠ []
  whole_digits : ∀ c ∈ whole, c.isDigit = true
  fraction_digits : ∀ c ∈ fraction, c.isDigit = true
  value : digitsValue (whole ++ fraction) = digitsValue digits * 10 ^ k
  length : (fraction.length : Int) = digits.length - lead - 1 + k

private theorem plain_parts {digits : List Char} (hne : digits ≠ [])
    (hdigits : ∀ c ∈ digits, c.isDigit = true) (lead : Int) :
    ∃ whole fraction k, plain digits lead = whole ++ '.' :: fraction ∧
      Parts digits lead whole fraction k := by
  have hlen := List.length_pos_iff.mpr hne
  unfold plain
  by_cases hneg : lead < 0
  · rw [if_pos hneg]
    refine ⟨['0'], _, 0, rfl, by simp, by simp, ?_, ?_, ?_⟩
    · intro c hc
      rcases List.mem_append.mp hc with hc | hc
      · exact isDigit_of_mem_zeros c hc
      · exact hdigits c hc
    · have hzero := digitsValue_zeros_append ((-lead - 1).toNat + 1) digits
      rw [List.replicate_succ] at hzero
      simpa using hzero
    · simp only [List.length_append, List.length_replicate]
      omega
  · rw [if_neg hneg]
    simp only
    obtain ⟨n, hn⟩ : ∃ n, n = lead.toNat + 1 := ⟨_, rfl⟩
    rw [← hn]
    by_cases hshort : digits.length ≤ n
    · have hdrop : digits.drop n = [] := List.drop_eq_nil_of_le hshort
      rw [hdrop, List.take_of_length_le hshort]
      refine ⟨digits ++ List.replicate (n - digits.length) '0', ['0'], n - digits.length + 1, rfl,
        by simp [hne], ?_, by simp, ?_, ?_⟩
      · intro c hc
        rcases List.mem_append.mp hc with hc | hc
        · exact hdigits c hc
        · exact isDigit_of_mem_zeros c hc
      · rw [List.append_assoc, ← List.replicate_succ', digitsValue_append_zeros]
      · simp only [List.length_singleton]
        omega
    · have hdrop : digits.drop n ≠ [] := by
        intro h
        have := List.drop_eq_nil_iff.mp h
        omega
      have hzeros : n - digits.length = 0 := by omega
      have htake : digits.take n ≠ [] := by
        intro h
        have := congrArg List.length h
        simp only [List.length_take, List.length_nil] at this
        omega
      simp only [hzeros, List.replicate_zero, List.append_nil, List.isEmpty_iff, if_neg hdrop]
      refine ⟨_, _, 0, rfl, htake, fun c hc => hdigits c (List.mem_of_mem_take hc),
        fun c hc => hdigits c (List.mem_of_mem_drop hc), ?_, ?_⟩
      · rw [List.take_append_drop, Nat.pow_zero, Nat.mul_one]
      · rw [List.length_drop]
        omega

/-- A decimal without an exponent reads back, but for zeros that have moved. -/
theorem plain_reads {digits : List Char} (hne : digits ≠ [])
    (hdigits : ∀ c ∈ digits, c.isDigit = true) (lead : Int) :
    IsFloatText (plain digits lead) ∧ (ofLiteral (plain digits lead)).nearest
      = (⟨digitsValue digits, lead + 1 - digits.length⟩ : Decimal).nearest := by
  obtain ⟨whole, fraction, k, hplain, hparts⟩ := plain_parts hne hdigits lead
  have hread : ofLiteral (whole ++ '.' :: fraction ++ []) = _ :=
    ofLiteral_append hparts.whole_digits (Or.inr ⟨fraction, rfl, hparts.fraction_digits⟩) (by simp)
  have hexp : exponentValue [] - (fraction.length : Int) = lead + 1 - digits.length - k := by
    have := hparts.length
    simp only [exponentValue]
    omega
  rw [hplain]
  refine ⟨.point hparts.ne_nil hparts.whole_digits hparts.fraction_digits, ?_⟩
  rw [List.append_nil] at hread
  rw [hread, List.drop_one, List.tail_cons, hparts.value, hexp, nearest_shift]

section Exponent

variable (f : Layout)

private theorem isDigit_of_mem_exponentDigits (e : Nat) :
    ∀ c ∈ f.exponentDigits e, c.isDigit = true := by
  intro c hc
  rcases List.mem_append.mp hc with hc | hc
  · exact isDigit_of_mem_zeros c hc
  · exact isDigit_of_mem_toDigits c hc

private theorem exponentDigits_ne_nil (e : Nat) : f.exponentDigits e ≠ [] :=
  List.append_ne_nil_of_right_ne_nil _ Nat.toDigits_ne_nil

private theorem digitsValue_exponentDigits (e : Nat) : digitsValue (f.exponentDigits e) = e := by
  rw [exponentDigits, digitsValue_zeros_append, digitsValue_toDigits]

end Exponent

section Sign

variable {f : Layout} (hplus : f.plus = "" ∨ f.plus = "+")
include hplus

private theorem isSign_of_plus (lead : Int) :
    IsSign (if lead < 0 then ['-'] else f.plus.toList) := by
  split
  · exact Or.inr (Or.inl rfl)
  · rcases hplus with h | h
    · rw [h]
      exact Or.inl rfl
    · rw [h]
      exact Or.inr (Or.inr rfl)

private theorem exponentValue_scientific (lead : Int) :
    exponentValue ('e' :: ((if lead < 0 then ['-'] else f.plus.toList) ++
      f.exponentDigits lead.natAbs)) = lead := by
  rw [exponentValue_append (isSign_of_plus hplus lead) (isDigit_of_mem_exponentDigits f _),
    digitsValue_exponentDigits]
  by_cases hneg : lead < 0
  · rw [if_pos hneg, if_pos rfl]
    omega
  · have hne : f.plus.toList ≠ ['-'] := by
      rcases hplus with h | h <;> rw [h] <;> decide
    rw [if_neg hneg, if_neg hne]
    omega

/-- A decimal with an exponent reads back as it is. -/
theorem scientific_reads {digits : List Char} (hne : digits ≠ [])
    (hdigits : ∀ c ∈ digits, c.isDigit = true) (lead : Int) :
    IsFloatText (f.scientific digits lead) ∧ ofLiteral (f.scientific digits lead)
      = ⟨digitsValue digits, lead + 1 - digits.length⟩ := by
  obtain ⟨c, cs, rfl⟩ := List.exists_cons_of_ne_nil hne
  have hc : ∀ d ∈ [c], d.isDigit = true := by
    intro d hd
    rw [List.mem_singleton.mp hd]
    exact hdigits c (by simp)
  have hcs : ∀ d ∈ cs, d.isDigit = true := fun d hd => hdigits d (by simp [hd])
  obtain ⟨point, hpoint, hdrop, hsplit⟩ : ∃ point, IsFraction point ∧ point.drop 1 = cs ∧
      (if cs.isEmpty then [] else '.' :: cs) = point := by
    cases cs with
    | nil => exact ⟨[], Or.inl rfl, rfl, rfl⟩
    | cons d ds => exact ⟨'.' :: d :: ds, Or.inr ⟨_, rfl, hcs⟩, rfl, rfl⟩
  have hread : ofLiteral ([c] ++ point ++ 'e' ::
      ((if lead < 0 then ['-'] else f.plus.toList) ++ f.exponentDigits lead.natAbs)) = _ :=
    ofLiteral_append hc hpoint (by simp)
  rw [exponentValue_scientific hplus, hdrop] at hread
  simp only [scientific, List.drop_succ_cons, List.drop_zero, List.take_succ_cons, List.take_zero,
    hsplit]
  refine ⟨.exponent (by simp) hc hpoint (isSign_of_plus hplus lead)
    (exponentDigits_ne_nil f _) (isDigit_of_mem_exponentDigits f _), ?_⟩
  rw [hread]
  simp only [List.singleton_append, List.length_cons, Decimal.mk.injEq, true_and]
  omega

/-- **The text of a decimal is the spelling of a float, and reads back as a decimal that
rounds alike.** -/
theorem ofDecimal_reads (d : Decimal) :
    IsFloatText (f.ofDecimal d) ∧ (ofLiteral (f.ofDecimal d)).nearest = d.nearest := by
  obtain ⟨m, e⟩ := d
  have hne : Nat.toDigits 10 m ≠ [] := Nat.toDigits_ne_nil
  have hexp : e + (Nat.toDigits 10 m).length - 1 + 1 - (Nat.toDigits 10 m).length = e := by omega
  unfold ofDecimal
  simp only
  split
  · have hplain := plain_reads hne isDigit_of_mem_toDigits (e + (Nat.toDigits 10 m).length - 1)
    rw [digitsValue_toDigits, hexp] at hplain
    exact hplain
  · have hscientific := scientific_reads hplus hne isDigit_of_mem_toDigits
      (e + (Nat.toDigits 10 m).length - 1)
    rw [digitsValue_toDigits, hexp] at hscientific
    exact ⟨hscientific.1, congrArg nearest hscientific.2⟩

/-- The text of a finite float reads back as the float. -/
theorem ofIndex_reads {n : Nat} (h : n < Binary64.infinityIndex) :
    IsFloatText (f.ofIndex n) ∧ (ofLiteral (f.ofIndex n)).nearest = n := by
  rw [ofIndex, if_neg (by omega), if_neg (by omega)]
  by_cases h0 : n = 0
  · rw [if_pos h0, h0]
    refine ⟨@IsFloatText.point ['0'] ['0'] (by simp) (by simp) (by simp), ?_⟩
    decide
  · rw [if_neg h0]
    obtain ⟨htext, hread⟩ := ofDecimal_reads hplus (shortest n)
    exact ⟨htext, hread.trans (nearest_shortest (by omega))⟩

end Sign

end Layout

/-! ### Float literals -/

theorem Decimal.toFloat_eq {d : Decimal} {x : Float} (hx : Binary64.IsUnsigned x)
    (h : d.nearest = Binary64.index x) : d.toFloat = x := by
  rw [← Binary64.ofIndex_index hx.1 hx.2]
  simp only [toFloat, h]

/-- **The text of a float literal is the spelling of one, and stands for that float.** -/
theorem floatLiteralText_reads {x : Float} (hx : Binary64.IsUnsigned x) :
    IsFloatText (floatLiteralText x).toList ∧ floatOfLiteral (floatLiteralText x) = x := by
  unfold floatLiteralText
  by_cases hinf : Binary64.index x = Binary64.infinityIndex
  · rw [if_pos (by simp [hx.1, hinf])]
    refine ⟨@IsFloatText.exponent ['1'] [] [] ['9', '9', '9'] (by simp) (by simp) (Or.inl rfl)
      (Or.inl rfl) (by simp) (by simp), ?_⟩
    apply Decimal.toFloat_eq hx
    rw [hinf]
    decide
  · have hlt : Binary64.index x < Binary64.infinityIndex := Nat.lt_of_le_of_ne hx.2 hinf
    obtain ⟨htext, hread⟩ := Layout.ofIndex_reads (f := literalLayout) (Or.inl rfl) hlt
    rw [if_neg (by simp [hinf]), Layout.text]
    simp only [hx.1, Bool.false_eq_true, false_and, if_false, floatOfLiteral,
      String.toList_ofList]
    exact ⟨htext, Decimal.toFloat_eq hx hread⟩

end LoopFree
