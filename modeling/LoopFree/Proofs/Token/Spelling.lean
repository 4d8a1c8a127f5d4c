/-
Which text is read as which token.

`Scan.lean` takes a token off a text and looks at what it took.  Here it is the other
way round: a text that starts with the spelling of a token is scanned as that token,
provided what follows does not go on the spelling.  After an operator anything may
follow; after a word or a number nothing may that stands in a word, and no point.

The classes of characters meet here.  A blank is no character of a word, a digit is one
but starts none, and no operator starts like a word or a number.
-/
import LoopFree.Proofs.Token.Scan
import LoopFree.Text.Blank

namespace LoopFree

/-! ### Runs of characters -/

/-- A run of characters of a kind ends where what follows starts with none of them. -/
theorem takeWhile_append_stop {p : Char → Bool} {run rest : List Char}
    (hrun : ∀ c ∈ run, p c = true) (hstop : ∀ c ∈ rest.head?, p c = false) :
    (run ++ rest).takeWhile p = run := by
  rw [List.takeWhile_append_of_pos hrun]
  cases rest with
  | nil => simp
  | cons c cs => simp [hstop c (by simp)]

theorem dropWhile_append_stop {p : Char → Bool} {run rest : List Char}
    (hrun : ∀ c ∈ run, p c = true) (hstop : ∀ c ∈ rest.head?, p c = false) :
    (run ++ rest).dropWhile p = rest := by
  rw [List.dropWhile_append_of_pos hrun]
  cases rest with
  | nil => simp
  | cons c cs => simp [hstop c (by simp)]

/-! ### Kinds of characters

Letters, number signs and blanks come from tables of code points, and nothing in a table says that
it has no point in common with another.  It is found out here by comparing ranges, and later
nobody looks into a table.
-/

namespace Text

private theorem blankRanges_ascending : CodeRange.Ascending blankRanges := by
  simp [blankRanges, CodeRange.Ascending]

/-- No code point of a blank is one of a letter or of a number sign. -/
theorem blank_points_apart : ∀ r ∈ blankRanges, ∀ n ∈ List.range' r.first (r.last + 1 - r.first),
    CodeRange.contains alphabeticRanges n = false ∧
      CodeRange.contains numericRanges n = false ∧ n ≠ '_'.toNat := by
  decide +kernel

end Text

/-- A blank stands in no word. -/
theorem isWordChar_of_isBlank {c : Char} (h : Text.isBlank c = true) : isWordChar c = false := by
  obtain ⟨r, hr, hlo, hhi⟩ :=
    (Text.CodeRange.contains_iff Text.blankRanges_ascending (by decide) c.toNat).mp h
  obtain ⟨halpha, hnum, hbar⟩ := Text.blank_points_apart r hr c.toNat
    (List.mem_range'_1.mpr ⟨hlo, by omega⟩)
  have hne : c ≠ '_' := fun hc => hbar (by rw [hc])
  simp [isWordChar, Text.isAlphabetic, Text.isNumeric, halpha, hnum, hne]

private theorem isNumeric_of_isDigit {c : Char} (h : c.isDigit = true) :
    Text.isNumeric c = true := by
  simp only [Char.isDigit, ge_iff_le, Bool.and_eq_true, decide_eq_true_eq] at h
  have hlo : 48 ≤ c.toNat := UInt32.le_iff_toNat_le.mp h.1
  have hhi : c.toNat ≤ 57 := UInt32.le_iff_toNat_le.mp h.2
  rw [Text.isNumeric, Text.numericRanges, Text.CodeRange.contains, if_pos hhi]
  exact decide_eq_true hlo

/-- A digit may stand in a word. -/
theorem isWordChar_of_isDigit {c : Char} (h : c.isDigit = true) : isWordChar c = true := by
  simp [isWordChar, isNumeric_of_isDigit h]

/-- A digit starts no word. -/
theorem isWordStart_of_isDigit {c : Char} (h : c.isDigit = true) : isWordStart c = false := by
  simp [isWordStart, isNumeric_of_isDigit h]

theorem isWordChar_of_isWordStart {c : Char} (h : isWordStart c = true) :
    isWordChar c = true :=
  (Bool.and_eq_true_iff.mp h).1

theorem isBlank_of_isWordChar {c : Char} (h : isWordChar c = true) : Text.isBlank c = false := by
  cases hb : Text.isBlank c with
  | false => rfl
  | true => rw [isWordChar_of_isBlank hb] at h; simp at h

/-- What follows does not go on a word or a number. -/
def EndsToken (rest : List Char) : Prop :=
  ∀ c ∈ rest.head?, isWordChar c = false ∧ c ≠ '.'

/-! ### Operators -/

/-- No operator starts with a character of a word or a number, or with a blank. -/
theorem head_of_mem_operators : ∀ e ∈ operators, ∀ c ∈ e.1.toList.head?,
    isWordChar c = false ∧ c ≠ '.' ∧ Text.isBlank c = false := by
  have hall : operators.all (fun e => e.1.toList.head?.all fun c =>
      !isWordChar c && c != '.' && !Text.isBlank c) = true := by
    decide +kernel
  intro e he c hc
  have hhead := (Option.all_eq_true _ _).mp (List.all_eq_true.mp hall e he) c hc
  simp only [Bool.and_eq_true, Bool.not_eq_true', bne_iff_ne] at hhead
  exact ⟨hhead.1.1, hhead.1.2, hhead.2⟩

/-- No operator holds a blank. -/
theorem not_blank_of_mem_operators : ∀ e ∈ operators, ∀ c ∈ e.1.toList,
    Text.isBlank c = false := by
  have hall : operators.all (fun e => e.1.toList.all fun c => !Text.isBlank c) = true := by
    decide +kernel
  intro e he c hc
  have hchars := List.all_eq_true.mp (List.all_eq_true.mp hall e he) c hc
  rw [Bool.not_eq_true'] at hchars
  exact hchars

theorem endsToken_of_mem_operators {e : Entry} (he : e ∈ operators) : EndsToken e.1.toList := by
  intro c hc
  obtain ⟨hword, hpoint, -⟩ := head_of_mem_operators e he c hc
  exact ⟨hword, hpoint⟩

/-- No operator stands where none starts with the first character. -/
theorem operator?_eq_none {c : Char} {rest : List Char}
    (h : ∀ e ∈ operators, ∀ d ∈ e.1.toList.head?, d ≠ c) : operator? (c :: rest) = none := by
  have hempty : (operators.filter fun e => e.1.toList.isPrefixOf (c :: rest)) = [] := by
    rw [List.filter_eq_nil_iff]
    intro e he hpre
    have hne : e.1.toList ≠ [] := (text_of_mem_operators e he).2
    obtain ⟨d, ds, hd⟩ := List.exists_cons_of_ne_nil hne
    rw [hd, List.isPrefixOf_iff_prefix, List.cons_prefix_cons] at hpre
    exact h e he d (by simp [hd]) hpre.1
  rw [operator?, longestOperator, hempty]
  rfl

/-- No operator stands where a word or a number goes on. -/
theorem operator?_of_isWordChar {c : Char} {rest : List Char} (h : isWordChar c = true) :
    operator? (c :: rest) = none := by
  refine operator?_eq_none fun e he d hd hdc => ?_
  have hword := (head_of_mem_operators e he d hd).1
  rw [hdc, h] at hword
  simp at hword

/-- An operator is scanned whatever follows it. -/
theorem scan_operator : ∀ e ∈ operators, ∀ rest : List Char,
    scan (e.1.toList ++ rest) = .token e.2 rest := by
  intro e he rest
  simp only [operators, List.mem_cons, List.not_mem_nil, or_false] at he
  rcases he with
    rfl | rfl | rfl | rfl | rfl | rfl | rfl | rfl | rfl | rfl | rfl | rfl | rfl | rfl <;>
    rfl

/-! ### Words -/

/-- A word is scanned as one token where it ends. -/
theorem scan_word {w rest : List Char} (hw : isWord w = true)
    (hstop : ∀ c ∈ rest.head?, isWordChar c = false) :
    scan (w ++ rest) = .token (.ofWord (String.ofList w)) rest := by
  cases w with
  | nil => cases hw
  | cons c cs =>
      obtain ⟨hc, hcs⟩ := Bool.and_eq_true_iff.mp hw
      have hrun := List.all_eq_true.mp hcs
      have hnone : operator? (c :: (cs ++ rest)) = none :=
        operator?_of_isWordChar (isWordChar_of_isWordStart hc)
      simp only [scan, List.cons_append, hnone, takeWord, if_pos hc,
        takeWhile_append_stop hrun hstop, dropWhile_append_stop hrun hstop]

/-! ### The spellings of numbers

These are the number literals as a manual would give them, piece by piece.  Whether there is a
point has to be remembered, since it tells a float from an integer and there may be only one.
-/

/-- Digits, and at least one of them. -/
def IsDigits (cs : List Char) : Prop :=
  cs ≠ [] ∧ ∀ c ∈ cs, c.isDigit = true

instance (cs : List Char) : Decidable (IsDigits cs) :=
  decidable_of_iff (cs ≠ [] ∧ cs.all Char.isDigit = true) (and_congr_right' List.all_eq_true)

/-- The sign of an exponent: none, or one of the two. -/
def IsSign (sign : List Char) : Prop :=
  sign = [] ∨ sign = ['-'] ∨ sign = ['+']

/-- What stands before an exponent: digits, perhaps with a point after the first of them, or a
point and digits.  The flag says whether there is a point. -/
inductive IsMantissa : List Char → Bool → Prop
  | whole {whole : List Char} (hwhole : IsDigits whole) : IsMantissa whole false
  | point {whole fraction : List Char} (hwhole : IsDigits whole)
      (hfraction : ∀ c ∈ fraction, c.isDigit = true) : IsMantissa (whole ++ '.' :: fraction) true
  | fraction {fraction : List Char} (hfraction : IsDigits fraction) :
      IsMantissa ('.' :: fraction) true

/-- An exponent: its mark, perhaps a sign, and digits. -/
inductive IsExponent : List Char → Prop
  | mk {mark : Char} {sign digits : List Char} (hmark : mark = 'e' ∨ mark = 'E')
      (hsign : IsSign sign) (hdigits : IsDigits digits) : IsExponent (mark :: (sign ++ digits))

/-- The spellings of floats: those with a point, and those with an exponent. -/
inductive IsFloatLiteral : List Char → Prop
  | point {cs : List Char} (hcs : IsMantissa cs true) : IsFloatLiteral cs
  | exponent {cs e : List Char} {hasPoint : Bool} (hcs : IsMantissa cs hasPoint)
      (he : IsExponent e) : IsFloatLiteral (cs ++ e)

/-- What stands between the whole digits of a float and its exponent: nothing, or a point
and digits. -/
def IsFraction (cs : List Char) : Prop :=
  cs = [] ∨ ∃ fraction, cs = '.' :: fraction ∧ ∀ c ∈ fraction, c.isDigit = true

/-- The spellings of floats that start with a digit: with a point, with an exponent, or
with both. -/
inductive IsFloatText : List Char → Prop
  | point {whole fraction : List Char} (hne : whole ≠ [])
      (hwhole : ∀ c ∈ whole, c.isDigit = true) (hfraction : ∀ c ∈ fraction, c.isDigit = true) :
      IsFloatText (whole ++ '.' :: fraction)
  | exponent {whole point sign digits : List Char} (hne : whole ≠ [])
      (hwhole : ∀ c ∈ whole, c.isDigit = true) (hpoint : IsFraction point) (hsign : IsSign sign)
      (hdne : digits ≠ []) (hdigits : ∀ c ∈ digits, c.isDigit = true) :
      IsFloatText (whole ++ point ++ 'e' :: (sign ++ digits))

theorem IsFloatText.isFloatLiteral {cs : List Char} (h : IsFloatText cs) : IsFloatLiteral cs := by
  cases h with
  | point hne hwhole hfraction => exact .point (.point ⟨hne, hwhole⟩ hfraction)
  | @exponent whole point sign digits hne hwhole hpoint hsign hdne hdigits =>
      have he : IsExponent ('e' :: (sign ++ digits)) := .mk (Or.inl rfl) hsign ⟨hdne, hdigits⟩
      rcases hpoint with rfl | ⟨fraction, rfl, hfraction⟩
      · rw [List.append_nil]
        exact .exponent (.whole ⟨hne, hwhole⟩) he
      · exact .exponent (.point ⟨hne, hwhole⟩ hfraction) he

/-! ### The characters of numbers -/

theorem isBlank_of_isDigit {c : Char} (h : c.isDigit = true) : Text.isBlank c = false :=
  isBlank_of_isWordChar (isWordChar_of_isDigit h)

private theorem IsSign.not_blank {sign : List Char} (h : IsSign sign) :
    ∀ c ∈ sign, Text.isBlank c = false := by
  rcases h with rfl | rfl | rfl
  · exact List.forall_mem_nil _
  · exact List.forall_mem_singleton.mpr (by decide)
  · exact List.forall_mem_singleton.mpr (by decide)

/-- A mantissa is made of digits and a point. -/
theorem IsMantissa.digit_or_point {cs : List Char} {hasPoint : Bool} (h : IsMantissa cs hasPoint) :
    ∀ c ∈ cs, c.isDigit = true ∨ c = '.' := by
  intro c hc
  cases h with
  | whole hwhole => exact Or.inl (hwhole.2 c hc)
  | point hwhole hfraction =>
      rcases List.mem_append.mp hc with hc | hc
      · exact Or.inl (hwhole.2 c hc)
      · rcases List.mem_cons.mp hc with rfl | hc
        · exact Or.inr rfl
        · exact Or.inl (hfraction c hc)
  | fraction hfraction =>
      rcases List.mem_cons.mp hc with rfl | hc
      · exact Or.inr rfl
      · exact Or.inl (hfraction.2 c hc)

private theorem IsMantissa.not_blank {cs : List Char} {hasPoint : Bool}
    (h : IsMantissa cs hasPoint) : ∀ c ∈ cs, Text.isBlank c = false := by
  intro c hc
  rcases h.digit_or_point c hc with hdigit | rfl
  · exact isBlank_of_isDigit hdigit
  · decide

private theorem IsExponent.not_blank {cs : List Char} (h : IsExponent cs) :
    ∀ c ∈ cs, Text.isBlank c = false := by
  obtain ⟨hmark, hsign, hdigits⟩ := h
  intro c hc
  rcases List.mem_cons.mp hc with rfl | hc
  · rcases hmark with rfl | rfl <;> decide
  · rcases List.mem_append.mp hc with hc | hc
    · exact hsign.not_blank c hc
    · exact isBlank_of_isDigit (hdigits.2 c hc)

theorem IsFloatLiteral.not_blank {cs : List Char} (h : IsFloatLiteral cs) :
    ∀ c ∈ cs, Text.isBlank c = false := by
  cases h with
  | point hcs => exact hcs.not_blank
  | exponent hcs he =>
      intro c hc
      rcases List.mem_append.mp hc with hc | hc
      · exact hcs.not_blank c hc
      · exact he.not_blank c hc

/-- A number starts with a digit or with a point. -/
theorem IsMantissa.head {cs : List Char} {hasPoint : Bool} (h : IsMantissa cs hasPoint) :
    ∃ c rest, cs = c :: rest ∧ (c.isDigit = true ∨ c = '.') := by
  cases h with
  | whole hwhole =>
      obtain ⟨d, ds, rfl⟩ := List.exists_cons_of_ne_nil hwhole.1
      exact ⟨d, ds, rfl, Or.inl (hwhole.2 d (by simp))⟩
  | @point whole fraction hwhole hfraction =>
      obtain ⟨d, ds, rfl⟩ := List.exists_cons_of_ne_nil hwhole.1
      exact ⟨d, ds ++ '.' :: fraction, rfl, Or.inl (hwhole.2 d (by simp))⟩
  | @fraction fraction hfraction => exact ⟨'.', fraction, rfl, Or.inr rfl⟩

/-! ### Numbers

Each piece of a number is taken as far as it goes.  So a spelling is scanned whole, and nothing
more, if what follows could not have belonged to one of its pieces.
-/

/-- A literal at the head of a text is scanned: no operator and no word starts like one. -/
theorem scan_literal {c : Char} {cs rest : List Char} {t : Token}
    (hc : c.isDigit = true ∨ c = '.') (hlit : takeLiteral (c :: cs) = .literal t rest) :
    scan (c :: cs) = .token t rest := by
  have hnone : operator? (c :: cs) = none := by
    rcases hc with hc | rfl
    · exact operator?_of_isWordChar (isWordChar_of_isDigit hc)
    · exact operator?_eq_none fun e he d hd => (head_of_mem_operators e he d hd).2.1
  have hword : isWordStart c = false := by
    rcases hc with hc | rfl
    · exact isWordStart_of_isDigit hc
    · decide
  simp only [scan, hnone, takeWord, hword, hlit, Bool.false_eq_true, if_false]

/-- A mantissa is taken as a whole where no digit follows, and no point that it could have. -/
theorem IsMantissa.take {cs rest : List Char} {hasPoint : Bool} (h : IsMantissa cs hasPoint)
    (hdigit : ∀ c ∈ rest.head?, c.isDigit = false)
    (hrest : hasPoint = false → ∀ c ∈ rest.head?, c ≠ '.') :
    takeMantissa (cs ++ rest) = some ⟨cs, hasPoint, rest⟩ := by
  have hpoint : ∀ cs : List Char, ∀ c ∈ ('.' :: cs).head?, c.isDigit = false := by
    intro cs c hc
    rw [List.head?_cons, Option.mem_some_iff] at hc
    rw [← hc]
    decide
  cases h with
  | whole hwhole =>
      simp only [takeMantissa, takeWhile_append_stop hwhole.2 hdigit,
        dropWhile_append_stop hwhole.2 hdigit, List.isEmpty_iff, if_neg hwhole.1]
      split
      · exact absurd rfl (hrest rfl '.' (by simp))
      · rfl
  | point hwhole hfraction =>
      rw [List.append_assoc, List.cons_append]
      simp only [takeMantissa, takeWhile_append_stop hwhole.2 (hpoint _),
        dropWhile_append_stop hwhole.2 (hpoint _), List.isEmpty_iff, if_neg hwhole.1,
        takeWhile_append_stop hfraction hdigit, dropWhile_append_stop hfraction hdigit]
  | fraction hfraction =>
      have hpointDigit : ¬ ('.' : Char).isDigit = true := by decide
      rw [List.cons_append]
      simp only [takeMantissa, List.takeWhile_cons, if_neg hpointDigit, List.isEmpty_nil, if_true,
        takeWhile_append_stop hfraction.2 hdigit, dropWhile_append_stop hfraction.2 hdigit,
        List.isEmpty_iff, if_neg hfraction.1]

theorem takeSign_append_digits {sign digits rest : List Char} (hsign : IsSign sign)
    (hdigits : IsDigits digits) :
    takeSign (sign ++ (digits ++ rest)) = (sign, digits ++ rest) := by
  obtain ⟨d, ds, rfl⟩ := List.exists_cons_of_ne_nil hdigits.1
  have hd := hdigits.2 d (by simp)
  have hplus : d ≠ '+' := by rintro rfl; simp at hd
  have hminus : d ≠ '-' := by rintro rfl; simp at hd
  rcases hsign with rfl | rfl | rfl
  · simp [takeSign, hplus, hminus]
  · rfl
  · rfl

/-- An exponent is taken as a whole where no digit follows. -/
theorem IsExponent.take {cs rest : List Char} (h : IsExponent cs)
    (hrest : ∀ c ∈ rest.head?, c.isDigit = false) :
    takeExponent (cs ++ rest) = .present cs rest := by
  obtain ⟨hmark, hsign, hdigits⟩ := h
  rw [List.cons_append, List.append_assoc, takeExponent, if_pos (by simpa using hmark)]
  simp only [takeSign_append_digits hsign hdigits, takeWhile_append_stop hdigits.2 hrest,
    dropWhile_append_stop hdigits.2 hrest, List.isEmpty_iff, if_neg hdigits.1]

/-- An exponent goes on no mantissa. -/
theorem IsExponent.head {cs : List Char} (h : IsExponent cs) (rest : List Char) :
    ∀ c ∈ (cs ++ rest).head?, c.isDigit = false ∧ c ≠ '.' := by
  obtain ⟨hmark, hsign, hdigits⟩ := h
  intro c hc
  rw [List.cons_append, List.head?_cons, Option.mem_some_iff] at hc
  rw [← hc]
  rcases hmark with rfl | rfl <;> decide

private theorem takeExponent_absent {rest : List Char} (h : ∀ c ∈ rest.head?, c ≠ 'e' ∧ c ≠ 'E') :
    takeExponent rest = .absent := by
  cases rest with
  | nil => rfl
  | cons c cs =>
      obtain ⟨he, hE⟩ := h c (by simp)
      simp [takeExponent, he, hE]

/-- A mantissa alone is a number, a float where it has a point, if nothing follows that goes on
it. -/
theorem scan_mantissa {cs rest : List Char} {hasPoint : Bool} (h : IsMantissa cs hasPoint)
    (hdigit : ∀ c ∈ rest.head?, c.isDigit = false)
    (hpoint : hasPoint = false → ∀ c ∈ rest.head?, c ≠ '.')
    (hexponent : ∀ c ∈ rest.head?, c ≠ 'e' ∧ c ≠ 'E') :
    scan (cs ++ rest)
      = .token (if hasPoint then .float (String.ofList cs) else .integer (String.ofList cs))
          rest := by
  have hm := h.take hdigit hpoint
  obtain ⟨c, ds, rfl, hc⟩ := h.head
  rw [List.cons_append] at hm ⊢
  refine scan_literal hc ?_
  rw [takeLiteral, hm]
  simp only [takeExponent_absent hexponent]

/-- A mantissa and an exponent are a float, if no digit follows. -/
theorem scan_exponent {cs e rest : List Char} {hasPoint : Bool} (hcs : IsMantissa cs hasPoint)
    (he : IsExponent e) (hdigit : ∀ c ∈ rest.head?, c.isDigit = false) :
    scan (cs ++ e ++ rest) = .token (.float (String.ofList (cs ++ e))) rest := by
  have hm := hcs.take (fun c hc => (he.head rest c hc).1) fun _ c hc => (he.head rest c hc).2
  obtain ⟨c, ds, rfl, hc⟩ := hcs.head
  rw [List.append_assoc, List.cons_append]
  rw [List.cons_append] at hm
  refine scan_literal hc ?_
  rw [takeLiteral, hm]
  simp only [he.take hdigit]

/-- A mantissa holds no mark of an exponent. -/
theorem IsMantissa.no_mark {cs : List Char} {hasPoint : Bool} (h : IsMantissa cs hasPoint) :
    'e' ∉ cs ∧ 'E' ∉ cs :=
  ⟨fun hmem => absurd (h.digit_or_point 'e' hmem) (by decide),
    fun hmem => absurd (h.digit_or_point 'E' hmem) (by decide)⟩

/-- **The spelling of a float is scanned as one token**, if no digit follows, and no exponent
that it could have. -/
theorem scan_floatLiteral {cs rest : List Char} (h : IsFloatLiteral cs)
    (hdigit : ∀ c ∈ rest.head?, c.isDigit = false)
    (hexponent : 'e' ∉ cs → 'E' ∉ cs → ∀ c ∈ rest.head?, c ≠ 'e' ∧ c ≠ 'E') :
    scan (cs ++ rest) = .token (.float (String.ofList cs)) rest := by
  cases h with
  | point hcs => exact scan_mantissa hcs hdigit nofun (hexponent hcs.no_mark.1 hcs.no_mark.2)
  | exponent hcs he => exact scan_exponent hcs he hdigit

section Ends

variable {rest : List Char} (hrest : EndsToken rest)
include hrest

theorem EndsToken.not_isDigit : ∀ c ∈ rest.head?, c.isDigit = false := by
  intro c hc
  cases hd : c.isDigit with
  | false => rfl
  | true =>
      have := (hrest c hc).1
      rw [isWordChar_of_isDigit hd] at this
      simp at this

theorem EndsToken.not_exponent : ∀ c ∈ rest.head?, c ≠ 'e' ∧ c ≠ 'E' := by
  intro c hc
  have := (hrest c hc).1
  constructor
  · rintro rfl
    exact absurd this (by decide)
  · rintro rfl
    exact absurd this (by decide)

/-- Digits alone are an integer. -/
theorem scan_integer {digits : List Char} (hne : digits ≠ [])
    (hdigits : ∀ c ∈ digits, c.isDigit = true) :
    scan (digits ++ rest) = .token (.integer (String.ofList digits)) rest :=
  scan_mantissa (.whole ⟨hne, hdigits⟩) hrest.not_isDigit (fun _ c hc => (hrest c hc).2)
    hrest.not_exponent

end Ends

end LoopFree
