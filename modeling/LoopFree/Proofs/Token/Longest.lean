/-
The longest token at the head of a text.

A token may stand at the head of a text when the text starts with a spelling of it, and often
several may: `iffy` starts with the names `i` and `iffy` and with the keyword `if`.  The rule is
that the longest one is taken.  It is said here without the scanners: `Token.Heads` are the
tokens that may stand there, and `Token.Longest` is the one among them that no other outdoes.

The scanners follow the rule because they look no further than at the character behind a token:
a longer token would be taken when it stands alone, and nothing in front of its end would be
seen to differ.  There is one exception to the rule.  Where a number is the longest token and an
exponent begins behind it that has no digits (`BreaksOff`), both are refused together.
-/
import LoopFree.Proofs.Token.Ending
import LoopFree.Proofs.Token.Placement

namespace LoopFree

/-! ### The tokens that may stand at the head of a text

That a longer token would have been scanned is shown by letting it stand alone.  There it is
scanned; and up to the end of the shorter token, and one character further, the scanner sees in
both cases the same.
-/

/-- The text starts with a spelling of the token. -/
structure Token.Heads (t : Token) (cs : List Char) : Prop where
  wellFormed : t.WellFormed
  isPrefix : t.text.toList <+: cs

/-- The token may stand at the head of the text, and none that may is longer. -/
structure Token.Longest (t : Token) (cs : List Char) : Prop extends t.Heads cs where
  longest : ∀ u : Token, u.Heads cs → u.text.toList.length ≤ t.text.toList.length

/-- The text of a token alone is scanned as that token. -/
theorem Token.WellFormed.scan_alone {t : Token} (h : t.WellFormed) :
    LoopFree.scan t.text.toList = .token t [] := by
  have hscan : LoopFree.scan (t.text.toList ++ []) = .token t [] := h.scan_of_endsBefore nofun
  rwa [List.append_nil] at hscan

/-- A token is known by its text. -/
theorem Token.WellFormed.eq_of_text {t u : Token} (ht : t.WellFormed) (hu : u.WellFormed)
    (htext : t.text = u.text) : t = u := by
  have hscan := ht.scan_alone
  rw [htext, hu.scan_alone] at hscan
  cases hscan
  rfl

theorem Token.Longest.unique {t u : Token} {cs : List Char} (ht : t.Longest cs)
    (hu : u.Longest cs) : t = u := by
  have hlength := Nat.le_antisymm (hu.longest t ht.toHeads) (ht.longest u hu.toHeads)
  have hchars := List.prefix_of_prefix_length_le ht.isPrefix hu.isPrefix (Nat.le_of_eq hlength)
  exact ht.wellFormed.eq_of_text hu.wellFormed (String.toList_inj.mp (hchars.eq_of_length hlength))

/-- A prefix that is not the shorter one goes on behind the other. -/
theorem exists_append_of_prefix {α : Type} {as bs cs : List α} (has : as <+: cs) (hbs : bs <+: cs)
    (h : as.length < bs.length) : ∃ b rest, bs = as ++ b :: rest := by
  obtain ⟨more, rfl⟩ := List.prefix_of_prefix_length_le has hbs (Nat.le_of_lt h)
  cases more with
  | nil => simp at h
  | cons b rest => exact ⟨b, rest, rfl⟩

/-- **A scanned token is the longest.**  A longer one would be scanned when it stands alone; but the
scanner sees no more of it than the character behind the shorter one. -/
theorem longest_of_scan {cs rest : List Char} {t : Token} (h : scan cs = .token t rest) :
    t.Longest cs := by
  obtain ⟨hsplit, -⟩ := scan_append h
  have hprefix : t.text.toList <+: cs := ⟨rest, hsplit⟩
  refine ⟨⟨wellFormed_of_scan h, hprefix⟩, fun u hu => Nat.not_lt.mp fun hlt => ?_⟩
  obtain ⟨c, more, hmore⟩ := exists_append_of_prefix hprefix hu.isPrefix hlt
  have hhead : (c :: more).head? = rest.head? := by
    obtain ⟨left, hleft⟩ := hu.isPrefix
    rw [← hsplit, hmore, List.append_assoc] at hleft
    rw [← List.append_cancel_left hleft]
    rfl
  rw [← hsplit] at h
  have hscan := scan_token_congr h hhead
  rw [← hmore, hu.wellFormed.scan_alone] at hscan
  cases hscan

/-! ### Where no token is scanned

The rule has to hold also where nothing comes of a scan: no token may stand there that was
overlooked.  A word or an operator is scanned wherever one may stand, so only numbers are left,
and of these the scanner takes as much as there is.
-/

/-- A word is scanned where one starts. -/
theorem scan_of_isWordStart {c : Char} (hc : isWordStart c = true) (cs : List Char) :
    ∃ t rest, scan (c :: cs) = .token t rest := by
  have hnone : operator? (c :: cs) = none := operator?_of_isWordChar (isWordChar_of_isWordStart hc)
  refine ⟨.ofWord (String.ofList (c :: cs.takeWhile isWordChar)), cs.dropWhile isWordChar, ?_⟩
  simp only [scan, hnone, takeWord, if_pos hc]

/-- Where no token is scanned none may stand but a number. -/
theorem Token.Heads.number {u : Token} {cs : List Char} (hu : u.Heads cs)
    (hnone : ∀ t rest, scan cs ≠ .token t rest) :
    ∃ m hasPoint, IsMantissa m hasPoint ∧
      (u.text.toList = m ∨ ∃ e, IsExponent e ∧ u.text.toList = m ++ e) := by
  obtain ⟨left, rfl⟩ := hu.isPrefix
  cases hu.wellFormed.spelled with
  | @operator e he =>
      rw [(text_of_mem_operators e he).1] at hnone
      exact absurd (scan_operator e he left) (hnone _ _)
  | @word w hw =>
      rw [Token.text_ofWord] at hnone
      cases hchars : w.toList with
      | nil =>
          rw [hchars] at hw
          cases hw
      | cons c cs =>
          rw [hchars] at hw hnone
          obtain ⟨t, rest, hscan⟩ := scan_of_isWordStart (Bool.and_eq_true_iff.mp hw).1 (cs ++ left)
          exact absurd hscan (hnone t rest)
  | integer hdigits => exact ⟨_, false, .whole hdigits, Or.inl rfl⟩
  | float hliteral =>
      generalize hchars : String.toList _ = chars at hliteral
      cases hliteral with
      | point hcs => exact ⟨chars, true, hcs, Or.inl hchars⟩
      | exponent hcs he => exact ⟨_, _, hcs, Or.inr ⟨_, he, hchars⟩⟩

/-- A mantissa is taken where one starts with a digit. -/
theorem takeMantissa_digit {d : Char} (hd : d.isDigit = true) (cs : List Char) :
    ∃ m, takeMantissa (d :: cs) = some m := by
  simp only [takeMantissa, List.takeWhile_cons, if_pos hd, List.isEmpty_cons]
  split
  · contradiction
  · split <;> exact ⟨_, rfl⟩

/-- A mantissa is taken where one starts with a point. -/
theorem takeMantissa_point {d : Char} (hd : d.isDigit = true) (cs : List Char) :
    ∃ m, takeMantissa ('.' :: d :: cs) = some m := by
  have hpoint : ¬ ('.' : Char).isDigit = true := by decide
  simp only [takeMantissa, List.takeWhile_cons, if_neg hpoint, if_pos hd, List.isEmpty_nil,
    List.isEmpty_cons, if_true]
  exact ⟨_, rfl⟩

/-- **The mantissa that is taken is the longest.** -/
theorem IsMantissa.length_le_take {m : List Char} {hasPoint : Bool} (h : IsMantissa m hasPoint)
    (rest : List Char) :
    ∃ taken, takeMantissa (m ++ rest) = some taken ∧ m.length ≤ taken.text.length := by
  obtain ⟨taken, htaken⟩ : ∃ taken, takeMantissa (m ++ rest) = some taken := by
    cases h with
    | whole hwhole =>
        obtain ⟨d, ds, rfl⟩ := List.exists_cons_of_ne_nil hwhole.1
        exact takeMantissa_digit (hwhole.2 d (by simp)) _
    | point hwhole hfraction =>
        obtain ⟨d, ds, rfl⟩ := List.exists_cons_of_ne_nil hwhole.1
        exact takeMantissa_digit (hwhole.2 d (by simp)) _
    | fraction hfraction =>
        obtain ⟨d, ds, rfl⟩ := List.exists_cons_of_ne_nil hfraction.1
        exact takeMantissa_point (hfraction.2 d (by simp)) _
  refine ⟨taken, htaken, Nat.not_lt.mp fun hlt => ?_⟩
  -- The mantissa alone would be taken as a whole, and as what was taken of the longer text.
  have hsplit := takeMantissa_append htaken
  obtain ⟨c, more, hmore⟩ := exists_append_of_prefix ⟨taken.rest, hsplit⟩ ⟨rest, rfl⟩ hlt
  have hrest : taken.rest = c :: more ++ rest := by
    rw [hmore, List.append_assoc] at hsplit
    exact List.append_cancel_left hsplit
  obtain ⟨hdigit, hpoint⟩ := takeMantissa_ends htaken
  rw [hrest] at hdigit hpoint
  have hshort : takeMantissa (taken.text ++ c :: more) = some ⟨_, _, c :: more⟩ :=
    (isMantissa_of_takeMantissa htaken).take hdigit hpoint
  have hlong : takeMantissa (m ++ []) = some ⟨m, hasPoint, []⟩ := h.take nofun nofun
  rw [List.append_nil, hmore, hshort] at hlong
  simp at hlong

/-- An exponent with digits is not refused, whatever follows. -/
theorem IsExponent.take_ne_malformed {e : List Char} (h : IsExponent e) (rest cs : List Char) :
    takeExponent (e ++ rest) ≠ .malformed cs := by
  obtain ⟨hmark, hsign, hdigits⟩ := h
  rw [List.cons_append, List.append_assoc, takeExponent, if_pos (by simpa using hmark)]
  simp only [takeSign_append_digits hsign hdigits, List.takeWhile_append_of_pos hdigits.2,
    List.isEmpty_iff, List.append_eq_nil_iff, hdigits.1, false_and, if_false]
  intro h
  cases h

/-! ### Exponents without digits

In `1e+x` the number `1` could be taken, and then a name, an operator and another name.  The
scanner refuses instead what looks like a number that was not finished.  It is the one exception
to the rule, and so it is said exactly when it applies.
-/

/-- The mark of an exponent, and the sign behind it if one stands there, and no digit behind
that. -/
inductive BreaksOff : List Char → List Char → Prop
  | mk {mark : Char} {sign left : List Char} (hmark : mark = 'e' ∨ mark = 'E') (hsign : IsSign sign)
      (hunsigned : sign = [] → ∀ c ∈ left.head?, c ≠ '+' ∧ c ≠ '-')
      (hleft : ∀ c ∈ left.head?, c.isDigit = false) : BreaksOff (mark :: sign) left

/-- A sign is taken where one stands. -/
theorem takeSign_eq_iff {cs sign left : List Char} :
    takeSign cs = (sign, left) ↔
      cs = sign ++ left ∧ IsSign sign ∧ (sign = [] → ∀ c ∈ left.head?, c ≠ '+' ∧ c ≠ '-') := by
  constructor
  · intro h
    have happend := takeSign_append cs
    have hsign := isSign_takeSign cs
    rw [h] at happend hsign
    refine ⟨happend.symm, hsign, ?_⟩
    rintro rfl c hc
    obtain ⟨rest, rfl⟩ := List.head?_eq_some_iff.mp hc
    rw [← happend, List.nil_append, takeSign] at h
    split at h
    · cases h
    · rename_i hnone
      simpa using hnone
  · rintro ⟨rfl, rfl | rfl | rfl, hunsigned⟩
    · cases left with
      | nil => rfl
      | cons c rest =>
          have hnone := hunsigned rfl c rfl
          simp [takeSign, hnone.1, hnone.2]
    · rfl
    · rfl

/-- Digits are taken where one stands first. -/
theorem takeWhile_eq_nil_iff_head? {p : Char → Bool} {cs : List Char} :
    cs.takeWhile p = [] ↔ ∀ c ∈ cs.head?, p c = false := by
  cases cs with
  | nil => simp
  | cons c rest => simp [List.takeWhile_cons]

/-- **An exponent is refused exactly where it breaks off.** -/
theorem takeExponent_eq_malformed_iff {cs e : List Char} :
    takeExponent cs = .malformed e ↔ ∃ left, cs = e ++ left ∧ BreaksOff e left := by
  constructor
  · intro h
    unfold takeExponent at h
    split at h
    · cases h
    · rename_i mark after
      split at h
      · rename_i hmark
        obtain ⟨hafter, hsign, hunsigned⟩ := takeSign_eq_iff.mp (Prod.eta (takeSign after)).symm
        simp only [List.isEmpty_iff] at h
        split at h
        · rename_i hdigits
          cases h
          refine ⟨(takeSign after).2, congrArg _ hafter, ?_⟩
          exact .mk (by simpa using hmark) hsign hunsigned (takeWhile_eq_nil_iff_head?.mp hdigits)
        · cases h
      · cases h
  · rintro ⟨left, rfl, hmark, hsign, hunsigned, hleft⟩
    have htake := takeSign_eq_iff.mpr ⟨rfl, hsign, hunsigned⟩
    rw [List.cons_append, takeExponent, if_pos (by simpa using hmark)]
    simp only [htake, takeWhile_eq_nil_iff_head?.mpr hleft, List.isEmpty_nil, if_true]

/-! ### What a scan comes to

For each outcome of a scan its side of the rule: a token is the longest one, a character is
refused where no token may stand, and a literal is refused where a number is longest and an
exponent breaks off behind it.
-/

/-- **Where a character is refused no token may stand.** -/
theorem not_heads_of_scan_unexpected {cs : List Char} {c : Char} (h : scan cs = .unexpected c)
    (u : Token) : ¬ u.Heads cs := by
  intro hu
  obtain ⟨m, hasPoint, hm, htext⟩ := hu.number (by rw [h]; exact nofun)
  obtain ⟨rest, rfl⟩ : m <+: cs := by
    rcases htext with htext | ⟨e, -, htext⟩
    · rw [← htext]
      exact hu.isPrefix
    · exact (List.prefix_append m e).trans (htext ▸ hu.isPrefix)
  obtain ⟨taken, htaken, -⟩ := hm.length_le_take rest
  rw [takeMantissa_of_scan_unexpected h] at htaken
  cases htaken

/-- The token is a number without an exponent. -/
def Token.LacksExponent : Token → Prop
  | integer _ => True
  | float literal => 'e' ∉ literal.toList ∧ 'E' ∉ literal.toList
  | _ => False

/-- The number that a mantissa alone is. -/
def Token.ofMantissa (m : Mantissa) : Token :=
  if m.hasPoint then .float (String.ofList m.text) else .integer (String.ofList m.text)

private theorem Token.text_ofMantissa (m : Mantissa) : (ofMantissa m).text.toList = m.text := by
  unfold ofMantissa
  split <;> exact String.toList_ofList

private theorem Token.ofMantissa_number {m : Mantissa} (h : IsMantissa m.text m.hasPoint) :
    (ofMantissa m).WellFormed ∧ (ofMantissa m).LacksExponent := by
  unfold ofMantissa
  cases hpoint : m.hasPoint with
  | true =>
      rw [hpoint] at h
      simp only [if_true, WellFormed, LacksExponent, String.toList_ofList]
      exact ⟨.point h, h.no_mark⟩
  | false =>
      rw [hpoint] at h
      simp only [Bool.false_eq_true, if_false, WellFormed, LacksExponent, String.toList_ofList]
      exact ⟨h.isDigits, trivial⟩

/-- Where a literal is refused, its mantissa is the longest token. -/
theorem longest_ofMantissa {cs e : List Char} {literal : String} {m : Mantissa}
    (h : scan cs = .malformed literal) (hm : takeMantissa cs = some m)
    (he : takeExponent m.rest = .malformed e) : (Token.ofMantissa m).Longest cs := by
  obtain ⟨hwell, -⟩ := Token.ofMantissa_number (isMantissa_of_takeMantissa hm)
  have htext := Token.text_ofMantissa m
  refine ⟨⟨hwell, ?_⟩, fun u hu => ?_⟩
  · rw [htext]
    exact ⟨m.rest, takeMantissa_append hm⟩
  · rw [htext]
    obtain ⟨m', hasPoint, hm', htext'⟩ := hu.number (by rw [h]; exact nofun)
    obtain ⟨rest, hrest⟩ := hu.isPrefix
    rcases htext' with hu' | ⟨e', he', hu'⟩
    · obtain ⟨taken, htaken, hle⟩ := hm'.length_le_take rest
      rw [hu'] at hrest ⊢
      rw [hrest, hm] at htaken
      cases htaken
      exact hle
    · -- The mantissa of a number with an exponent is taken as it is, and then so is the exponent.
      rw [hu', List.append_assoc] at hrest
      have htake := hm'.take (fun c hc => (he'.head rest c hc).1)
        fun _ c hc => (he'.head rest c hc).2
      rw [hrest, hm] at htake
      cases htake
      exact absurd he (he'.take_ne_malformed rest e)

/-- **Where a literal is refused, a number is the longest token**, and an exponent breaks off behind
it. -/
theorem longest_of_scan_malformed {cs : List Char} {literal : String}
    (h : scan cs = .malformed literal) :
    ∃ (t : Token) (e left : List Char), t.Longest cs ∧ t.LacksExponent ∧ BreaksOff e left ∧
      cs = t.text.toList ++ (e ++ left) ∧ literal = t.text ++ String.ofList e := by
  obtain ⟨m, e, hm, he, rfl⟩ := takeMantissa_of_scan_malformed h
  obtain ⟨left, hleft, hbreaks⟩ := takeExponent_eq_malformed_iff.mp he
  obtain ⟨-, hlacks⟩ := Token.ofMantissa_number (isMantissa_of_takeMantissa hm)
  have hlongest := longest_ofMantissa h hm he
  have htext := Token.text_ofMantissa m
  refine ⟨.ofMantissa m, e, left, hlongest, hlacks, hbreaks, ?_, ?_⟩
  · rw [htext, ← hleft, takeMantissa_append hm]
  · rw [String.ofList_append, ← htext, String.ofList_toList]

/-- The scanner takes the longest token but where a number breaks off. -/
theorem not_breaksOff_of_scan {cs left e after : List Char} {t : Token}
    (h : scan cs = .token t left) (ht : t.LacksExponent) (he : BreaksOff e after) :
    left ≠ e ++ after := by
  rintro rfl
  have hends := endsBefore_of_scan h
  obtain ⟨hmark, -, -, -⟩ := he
  have hmark' := hends _ rfl
  cases t with
  | integer =>
      obtain ⟨-, -, hlower, hupper⟩ := hmark'
      exact hmark.elim hlower hupper
  | float =>
      obtain ⟨hlower, hupper⟩ := hmark'.2 ht.1 ht.2
      exact hmark.elim hlower hupper
  | _ => exact ht

/-- **A scan of a text that starts with something follows the rule of the longest token.** -/
theorem scan_longest {cs : List Char} (hne : cs ≠ []) :
    ((∀ t : Token, ¬ t.Heads cs) → ∃ c rest, cs = c :: rest ∧ scan cs = .unexpected c) ∧
    ((∃ t : Token, t.Heads cs) → ∃ (t : Token) (left : List Char), t.Longest cs ∧
      cs = t.text.toList ++ left ∧
      (∀ e after, t.LacksExponent → BreaksOff e after → left = e ++ after →
        scan cs = .malformed (t.text ++ String.ofList e)) ∧
      ((∀ e after, t.LacksExponent → BreaksOff e after → left ≠ e ++ after) →
        scan cs = .token t left)) := by
  obtain ⟨c, rest, rfl⟩ := List.exists_cons_of_ne_nil hne
  cases hscan : scan (c :: rest) with
  | nothing => exact absurd hscan (scan_cons_ne_nothing c rest)
  | unexpected d =>
      obtain rfl : c = d := Option.some.inj (head?_of_scan_unexpected hscan)
      refine ⟨fun _ => ⟨c, rest, rfl, rfl⟩, ?_⟩
      rintro ⟨t, ht⟩
      exact absurd ht (not_heads_of_scan_unexpected hscan t)
  | token t left =>
      have hlongest := longest_of_scan hscan
      refine ⟨fun hnone => absurd hlongest.toHeads (hnone t), fun _ => ?_⟩
      refine ⟨t, left, hlongest, (scan_append hscan).1.symm, fun e after ht he hleft => ?_,
        fun _ => rfl⟩
      exact absurd hleft (not_breaksOff_of_scan hscan ht he)
  | malformed literal =>
      obtain ⟨t, e, left, hlongest, hlacks, hbreaks, hcs, hliteral⟩ :=
        longest_of_scan_malformed hscan
      refine ⟨fun hnone => absurd hlongest.toHeads (hnone t), fun _ => ?_⟩
      refine ⟨t, e ++ left, hlongest, hcs, fun e' after _ he' hleft => ?_,
        fun hnone => absurd rfl (hnone e left hlacks hbreaks)⟩
      -- What breaks off is the same, however it is cut from what follows it.
      have htake := takeExponent_eq_malformed_iff.mpr ⟨left, rfl, hbreaks⟩
      rw [takeExponent_eq_malformed_iff.mpr ⟨after, hleft, he'⟩] at htake
      cases htake
      rw [hliteral]

/-! ### The kind of a token

The rule chooses a text.  Which token it stands for is told by the text itself, once it is known
to be well-formed: first by the tables, and then by its characters.
-/

/-- The token is what its text tells: an operator or a keyword where the text is in the tables, a
name where it is any other word, and where it is a number a float if it has a point or an
exponent. -/
structure Token.KindFits (t : Token) : Prop where
  operator : ∀ e ∈ operators, t.text = e.1 → t = e.2
  keyword : ∀ e ∈ keywords, t.text = e.1 → t = e.2
  name : isWord t.text.toList = true → (∀ e ∈ keywords, t.text ≠ e.1) → t = .identifier t.text
  number : (∃ c ∈ t.text.toList.head?, c.isDigit = true ∨ c = '.') →
    t = if '.' ∈ t.text.toList ∨ 'e' ∈ t.text.toList ∨ 'E' ∈ t.text.toList then .float t.text
      else .integer t.text

private theorem keyword?_eq_none {w : String} (h : ∀ e ∈ keywords, w ≠ e.1) :
    keyword? w = none := by
  rw [keyword?, Option.map_eq_none_iff, List.find?_eq_none]
  intro e he hname
  exact h e he (beq_iff_eq.mp hname).symm

/-- A float has a point or the mark of an exponent. -/
theorem IsFloatLiteral.marked {cs : List Char} (h : IsFloatLiteral cs) :
    '.' ∈ cs ∨ 'e' ∈ cs ∨ 'E' ∈ cs := by
  cases h with
  | point hcs => cases hcs <;> exact Or.inl (by simp)
  | exponent hcs he =>
      rcases he.mark_mem with hmark | hmark
      · exact Or.inr (Or.inl (List.mem_append_right _ hmark))
      · exact Or.inr (Or.inr (List.mem_append_right _ hmark))

/-- Digits alone have none of these. -/
theorem IsDigits.unmarked {cs : List Char} (h : IsDigits cs) :
    ¬ ('.' ∈ cs ∨ 'e' ∈ cs ∨ 'E' ∈ cs) := by
  rintro (hmem | hmem | hmem)
  all_goals exact absurd (h.2 _ hmem) (by decide)

/-- **A well-formed token is of the kind that its text tells.** -/
theorem Token.WellFormed.kindFits {t : Token} (h : t.WellFormed) : t.KindFits where
  operator e he htext :=
    h.eq_of_text (wellFormed_of_mem_operators e he)
      (htext.trans (text_of_mem_operators e he).1.symm)
  keyword e he htext :=
    h.eq_of_text (wellFormed_of_mem_keywords e he) (htext.trans (text_of_mem_keywords e he).symm)
  name hword hnone := h.eq_of_text (u := .identifier t.text) ⟨hword, keyword?_eq_none hnone⟩ rfl
  number := by
    rintro ⟨c, hc, hnumber⟩
    cases h.spelled with
    | @operator e he =>
        rw [(text_of_mem_operators e he).1] at hc
        obtain ⟨hword, hpoint, -⟩ := head_of_mem_operators e he c hc
        rcases hnumber with hdigit | rfl
        · rw [isWordChar_of_isDigit hdigit] at hword
          cases hword
        · exact absurd rfl hpoint
    | @word w hw =>
        rw [Token.text_ofWord] at hc
        obtain ⟨cs, hcs⟩ := List.head?_eq_some_iff.mp hc
        rw [hcs] at hw
        have hstart := (Bool.and_eq_true_iff.mp hw).1
        rcases hnumber with hdigit | rfl
        · rw [isWordStart_of_isDigit hdigit] at hstart
          cases hstart
        · exact absurd hstart (by decide)
    | integer hdigits => exact (if_neg hdigits.unmarked).symm
    | float hliteral => exact (if_pos hliteral.marked).symm

/-! ### Where a token is looked for

A look-ahead does not scan where it stands but behind blanks, and perhaps some lines further down.
The rule is about what it finds there.
-/

/-- Passing over blanks, and over the ends of lines where it must, a cursor comes to something that
is no blank. -/
inductive Cursor.Settles : Cursor → Cursor → Prop
  | here {c : Cursor} (h : c.skipBlanks.rest ≠ []) : Settles c c.skipBlanks
  | line {c d : Cursor} {chars : List Char} {unread : List Line} (hblank : c.skipBlanks.rest = [])
      (hunread : c.unread = .text chars :: unread)
      (h : Settles (enterLine chars c.position.line unread) d) : Settles c d

private theorem Cursor.Settles.rest_ne_nil {c d : Cursor} (h : c.Settles d) : d.rest ≠ [] := by
  induction h with
  | here h => exact h
  | line _ _ _ ih => exact ih

/-- The next token is scanned where the cursor settles. -/
theorem Cursor.Settles.next_eq {c d : Cursor} (h : c.Settles d) : c.next = d.scanHere := by
  induction h with
  | here h => simp only [next, List.isEmpty_iff, if_neg h]
  | @line c d chars unread hblank hunread h ih =>
      have hskip : c.skipBlanks.unread = c.unread := rfl
      simp only [next, hblank, hskip, hunread, List.isEmpty_nil, if_true, nextLine_text]
      exact ih

namespace Lookahead

/-- Asked for one token more than it holds, a look-ahead scans once. -/
theorem hasNext_one_more {s : Lookahead} {d : Cursor} (hd : s.cursor.Settles d) :
    s.hasNext (s.held.length + 1) =
      match d.scanHere with
      | .lexeme l after => (.ok true, ⟨s.held ++ [l], after⟩)
      | .done after => (.ok false, ⟨s.held, after⟩)
      | .failed why after => (.error why, ⟨s.held, after⟩) := by
  have hmissing : s.held.length + 1 - s.held.length = 1 := Nat.add_sub_cancel_left _ _
  rw [hasNext, fill, hmissing, scanMore, hd.next_eq]
  cases d.scanHere <;> rfl

/-- **The longest token wins.**  Where a look-ahead comes to something that is no blank it scans
by the rule of the longest token.  If no token may stand there, the first character is refused;
if the longest is a number without an exponent and an exponent breaks off behind it, both are
refused together; and else the longest token is given, of the kind that its text tells.  What is
refused is not passed over, and the tokens held stay. -/
theorem hasNext_longest (s : Lookahead) {d : Cursor} (hd : s.cursor.Settles d) :
    ((∀ t : Token, ¬ t.Heads d.rest) → ∃ c rest, d.rest = c :: rest ∧
      s.hasNext (s.held.length + 1)
        = (.error (.unexpectedCharacter c d.position), ⟨s.held, d⟩)) ∧
    ((∃ t : Token, t.Heads d.rest) → ∃ (t : Token) (left : List Char), t.Longest d.rest ∧
      t.KindFits ∧ d.rest = t.text.toList ++ left ∧
      (∀ e after, t.LacksExponent → BreaksOff e after → left = e ++ after →
        s.hasNext (s.held.length + 1)
          = (.error (.malformedExponent (t.text ++ String.ofList e) d.position), ⟨s.held, d⟩)) ∧
      ((∀ e after, t.LacksExponent → BreaksOff e after → left ≠ e ++ after) →
        s.hasNext (s.held.length + 1)
          = (.ok true, ⟨s.held ++ [⟨t, d.position⟩],
              ⟨left, d.position.advance t.text.toList.length, d.unread⟩⟩))) := by
  obtain ⟨hnone, hsome⟩ := scan_longest hd.rest_ne_nil
  rw [hasNext_one_more hd, Cursor.scanHere]
  constructor
  · intro h
    obtain ⟨c, rest, hrest, hscan⟩ := hnone h
    rw [hscan]
    exact ⟨c, rest, hrest, rfl⟩
  · intro h
    obtain ⟨t, left, hlongest, hrest, hbreaks, hgiven⟩ := hsome h
    refine ⟨t, left, hlongest, hlongest.wellFormed.kindFits, hrest, fun e after ht he hleft => ?_,
      fun hwhole => ?_⟩
    · rw [hbreaks e after ht he hleft]
    · rw [hgiven hwhole]

/-- On the second line a number with a point comes before an exponent that has a sign and no
digits; and a name starts with a keyword. -/
theorem hasNext_longest_secondLine :
    let number : Cursor := ⟨"12.e+;".toList, ⟨2, 2⟩, []⟩
    let name : Cursor := ⟨"iffy+1".toList, ⟨2, 2⟩, []⟩
    ((Cursor.start (.ofString " \n 12.e+;")).Settles number ∧
      (Lookahead.mk [] (Cursor.start (.ofString " \n 12.e+;"))).hasNext 1
        = (.error (.malformedExponent "12.e+" ⟨2, 2⟩), ⟨[], number⟩)) ∧
    ((Cursor.start (.ofString " \n iffy+1")).Settles name ∧
      (Lookahead.mk [] (Cursor.start (.ofString " \n iffy+1"))).hasNext 1
        = (.ok true, ⟨[⟨.identifier "iffy", ⟨2, 2⟩⟩], ⟨"+1".toList, ⟨2, 6⟩, []⟩⟩)) := by
  intro number name
  have hnumber : (Cursor.start (.ofString " \n 12.e+;")).Settles number :=
    .line rfl rfl (.line rfl rfl (.here (by decide)))
  have hname : (Cursor.start (.ofString " \n iffy+1")).Settles name :=
    .line rfl rfl (.line rfl rfl (.here (by decide)))
  have hfloat : (Token.float "12.").Longest number.rest :=
    longest_ofMantissa (m := ⟨"12.".toList, true, "e+;".toList⟩) (e := "e+".toList) rfl rfl rfl
  have hscan : scan name.rest = .token (.identifier "iffy") "+1".toList := by decide +kernel
  have hword : (Token.identifier "iffy").Longest name.rest := longest_of_scan hscan
  refine ⟨⟨hnumber, ?_⟩, hname, ?_⟩
  · obtain ⟨t, left, ht, -, hrest, hbreaks, -⟩ :=
      (hasNext_longest ⟨[], _⟩ hnumber).2 ⟨_, hfloat.toHeads⟩
    obtain rfl := ht.unique hfloat
    replace hrest : "12.".toList ++ "e+;".toList = "12.".toList ++ left := hrest
    obtain rfl := List.append_cancel_left hrest
    have hleft : ∀ c ∈ [';'].head?, c.isDigit = false := by
      intro c hc
      cases hc
      rfl
    exact hbreaks ['e', '+'] [';'] ⟨by decide, by decide⟩
      (@BreaksOff.mk 'e' ['+'] [';'] (Or.inl rfl) (Or.inr (Or.inr rfl)) nofun hleft) rfl
  · obtain ⟨t, left, ht, -, hrest, -, hgiven⟩ :=
      (hasNext_longest ⟨[], _⟩ hname).2 ⟨_, hword.toHeads⟩
    obtain rfl := ht.unique hword
    replace hrest : "iffy".toList ++ "+1".toList = "iffy".toList ++ left := hrest
    obtain rfl := List.append_cancel_left hrest
    exact hgiven nofun

end Lookahead

end LoopFree
