/-
Tokens and their texts.

A token is well-formed when its text is a spelling of its kind: a name is a word and no
keyword, an integer is digits, a float is written with a point or an exponent.  Scanning
gives well-formed tokens only, and it takes the text of a well-formed token for that
token, wherever the token ends.  No such text holds a blank, so blanks between tokens
keep them apart: any tokens, with any blanks between them, are read back.
-/
import LoopFree.Proofs.Token.Reading
import LoopFree.Proofs.Token.Lookahead

namespace LoopFree

/-- The text of the token is a spelling of its kind. -/
def Token.WellFormed : Token → Prop
  | identifier name => IsName name
  | integer digits => IsDigits digits.toList
  | float literal => IsFloatLiteral literal.toList
  | _ => True

/-! ### What is scanned is well-formed -/

theorem wellFormed_of_mem_operators : ∀ e ∈ operators, e.2.WellFormed := by
  simp [operators, Token.WellFormed]

theorem wellFormed_of_mem_keywords : ∀ e ∈ keywords, e.2.WellFormed := by
  simp [keywords, Token.WellFormed]

private theorem wellFormed_ofWord {w : String} (hw : isWord w.toList = true) :
    (Token.ofWord w).WellFormed := by
  unfold Token.ofWord
  cases hk : keyword? w with
  | none => exact ⟨hw, hk⟩
  | some t => exact wellFormed_of_mem_keywords _ (keyword?_eq_some hk)

private theorem isDigit_of_mem_takeWhile (cs : List Char) :
    ∀ c ∈ cs.takeWhile Char.isDigit, c.isDigit = true :=
  List.all_eq_true.mp List.all_takeWhile

theorem IsMantissa.isDigits {cs : List Char} (h : IsMantissa cs false) : IsDigits cs := by
  cases h with
  | whole hwhole => exact hwhole

theorem isMantissa_of_takeMantissa {cs : List Char} {m : Mantissa}
    (h : takeMantissa cs = some m) : IsMantissa m.text m.hasPoint := by
  unfold takeMantissa at h
  simp only [List.isEmpty_iff] at h
  split at h
  · split at h
    · split at h
      · cases h
      · rename_i hne
        cases h
        exact .fraction ⟨hne, isDigit_of_mem_takeWhile _⟩
    · cases h
  · rename_i hne
    have hwhole : IsDigits (cs.takeWhile Char.isDigit) := ⟨hne, isDigit_of_mem_takeWhile cs⟩
    split at h
    · cases h
      exact .point hwhole (isDigit_of_mem_takeWhile _)
    · cases h
      exact .whole hwhole

theorem isSign_takeSign (cs : List Char) : IsSign (takeSign cs).1 := by
  unfold takeSign
  split
  · split
    · rename_i hsign
      rcases Bool.or_eq_true_iff.mp hsign with h | h
      · rw [beq_iff_eq.mp h]
        exact Or.inr (Or.inr rfl)
      · rw [beq_iff_eq.mp h]
        exact Or.inr (Or.inl rfl)
    · exact Or.inl rfl
  · exact Or.inl rfl

theorem isExponent_of_takeExponent {cs e rest : List Char}
    (h : takeExponent cs = .present e rest) : IsExponent e := by
  unfold takeExponent at h
  split at h
  · cases h
  · split at h
    · rename_i hmark
      simp only [List.isEmpty_iff] at h
      split at h
      · cases h
      · rename_i hne
        cases h
        exact .mk (by simpa using hmark) (isSign_takeSign _) ⟨hne, isDigit_of_mem_takeWhile _⟩
    · cases h

private theorem wellFormed_of_takeLiteral {cs rest : List Char} {t : Token}
    (h : takeLiteral cs = .literal t rest) : t.WellFormed := by
  unfold takeLiteral at h
  split at h
  · cases h
  · rename_i m hm
    have hmantissa := isMantissa_of_takeMantissa hm
    split at h
    · cases h
      cases hpoint : m.hasPoint with
      | false =>
          rw [hpoint] at hmantissa
          show IsDigits (String.ofList m.text).toList
          rw [String.toList_ofList]
          exact hmantissa.isDigits
      | true =>
          rw [hpoint] at hmantissa
          show IsFloatLiteral (String.ofList m.text).toList
          rw [String.toList_ofList]
          exact .point hmantissa
    · rename_i e rest' he
      cases h
      show IsFloatLiteral (String.ofList (m.text ++ e)).toList
      rw [String.toList_ofList]
      exact .exponent hmantissa (isExponent_of_takeExponent he)
    · cases h

/-- **A scanned token is well-formed.** -/
theorem wellFormed_of_scan {cs rest : List Char} {t : Token} (h : scan cs = .token t rest) :
    t.WellFormed := by
  unfold scan at h
  split at h
  · rename_i s t' hop
    cases h
    exact wellFormed_of_mem_operators _ (longestOperator_some hop).1
  · split at h
    · rename_i word rest' hword
      cases h
      refine wellFormed_ofWord ?_
      rw [String.toList_ofList]
      exact isWord_of_takeWord hword
    · split at h
      · rename_i t' rest' hlit
        cases h
        exact wellFormed_of_takeLiteral hlit
      · cases h
      · split at h <;> cases h

theorem Source.Tokenizes.wellFormed {s : Source} {ls : List Lexeme} (h : s.Tokenizes ls) :
    ∀ l ∈ ls, l.token.WellFormed :=
  h.all_scanned fun _ _ _ => wellFormed_of_scan

theorem Token.WellFormed.named {t : Token} (h : t.WellFormed) : t.Named := by
  rintro x rfl
  exact h

/-! ### What is well-formed is scanned

Which characters go on a token depends on the token: a digit goes on an integer and on a name, but
a point on the integer only.  So the condition is one on the token and the next character, and a
blank always fulfils it.
-/

/-- The ways to write a token. -/
inductive Token.Spelled : Token → Prop
  | operator {e : Entry} (he : e ∈ operators) : Spelled e.2
  | word {w : String} (hw : isWord w.toList = true) : Spelled (.ofWord w)
  | integer {digits : String} (hdigits : IsDigits digits.toList) : Spelled (.integer digits)
  | float {literal : String} (hliteral : IsFloatLiteral literal.toList) : Spelled (.float literal)

theorem Token.WellFormed.spelled {t : Token} (h : t.WellFormed) : t.Spelled := by
  have hoperator : ∀ e ∈ operators, e.2.Spelled := fun e he => .operator he
  simp only [operators, List.forall_mem_cons] at hoperator
  obtain ⟨hplus, hminus, hstar, hslash, hassign, hsemicolon, hleftParen, hrightParen, hleftBrace,
    hrightBrace, hand, hor, hdoubleEquals, hnotEquals, -⟩ := hoperator
  have hword : ∀ w : String, isWord w.toList = true → (Token.ofWord w).Spelled := fun w => .word
  cases t with
  | identifier name =>
      rw [← h.ofWord]
      exact .word h.1
  | integer digits => exact .integer h
  | float literal => exact .float h
  | ifWord => exact hword "if" (by decide)
  | printWord => exact hword "print" (by decide)
  | trueWord => exact hword "True" (by decide)
  | falseWord => exact hword "False" (by decide)
  | _ => assumption

/-- No text of a token holds a blank. -/
theorem Token.WellFormed.not_blank {t : Token} (h : t.WellFormed) :
    ∀ c ∈ t.text.toList, Text.isBlank c = false := by
  cases h.spelled with
  | @operator e he =>
      rw [(text_of_mem_operators e he).1]
      exact not_blank_of_mem_operators e he
  | @word w hw =>
      rw [Token.text_ofWord]
      exact fun c hc => isBlank_of_isWordChar (isWordChar_of_mem hw c hc)
  | integer hdigits => exact fun c hc => isBlank_of_isDigit (hdigits.2 c hc)
  | float hliteral => exact hliteral.not_blank

/-- The character does not go on the text of the token. -/
def Token.EndsBefore : Token → Char → Prop
  | integer _, c => c.isDigit = false ∧ c ≠ '.' ∧ c ≠ 'e' ∧ c ≠ 'E'
  | float literal, c =>
      c.isDigit = false ∧ ('e' ∉ literal.toList → 'E' ∉ literal.toList → c ≠ 'e' ∧ c ≠ 'E')
  | identifier _, c => isWordChar c = false
  | ifWord, c => isWordChar c = false
  | printWord, c => isWordChar c = false
  | trueWord, c => isWordChar c = false
  | falseWord, c => isWordChar c = false
  | _, _ => True

/-- Anything may stand behind an operator. -/
theorem endsBefore_of_mem_operators : ∀ e ∈ operators, ∀ c, e.2.EndsBefore c := by
  simp [operators, Token.EndsBefore]

private theorem endsBefore_of_mem_keywords : ∀ e ∈ keywords, ∀ c,
    e.2.EndsBefore c ↔ isWordChar c = false := by
  simp [keywords, Token.EndsBefore]

theorem Token.endsBefore_ofWord (w : String) (c : Char) :
    (Token.ofWord w).EndsBefore c ↔ isWordChar c = false := by
  unfold Token.ofWord
  cases hk : keyword? w with
  | none => rfl
  | some t => exact endsBefore_of_mem_keywords _ (keyword?_eq_some hk) c

/-- What ends any token ends this one. -/
theorem EndsToken.endsBefore {rest : List Char} (h : EndsToken rest) (t : Token) :
    ∀ c ∈ rest.head?, t.EndsBefore c := by
  intro c hc
  have hword := (h c hc).1
  have hdigit := h.not_isDigit c hc
  have hexponent := h.not_exponent c hc
  cases t with
  | integer => exact ⟨hdigit, (h c hc).2, hexponent⟩
  | float => exact ⟨hdigit, fun _ _ => hexponent⟩
  | identifier | ifWord | printWord | trueWord | falseWord => exact hword
  | _ => trivial

/-- **The text of a token is scanned as that token**, where nothing follows that goes on it. -/
theorem Token.WellFormed.scan_of_endsBefore {t : Token} (h : t.WellFormed) {rest : List Char}
    (hrest : ∀ c ∈ rest.head?, t.EndsBefore c) :
    LoopFree.scan (t.text.toList ++ rest) = .token t rest := by
  cases h.spelled with
  | @operator e he =>
      rw [(text_of_mem_operators e he).1]
      exact scan_operator e he rest
  | @word w hw =>
      have hscan := scan_word hw fun c hc => (Token.endsBefore_ofWord w c).mp (hrest c hc)
      rw [String.ofList_toList] at hscan
      rw [Token.text_ofWord]
      exact hscan
  | @integer digits hdigits =>
      have hscan := scan_mantissa (.whole hdigits) (fun c hc => (hrest c hc).1)
        (fun _ c hc => (hrest c hc).2.1) fun c hc => (hrest c hc).2.2
      rw [String.ofList_toList] at hscan
      exact hscan
  | @float literal hliteral =>
      have hscan := scan_floatLiteral hliteral (fun c hc => (hrest c hc).1)
        fun he hE c hc => (hrest c hc).2 he hE
      rw [String.ofList_toList] at hscan
      exact hscan

/-- The text of a token is scanned as that token where it ends. -/
theorem Token.WellFormed.scan {t : Token} (h : t.WellFormed) {rest : List Char}
    (hrest : EndsToken rest) : scan (t.text.toList ++ rest) = .token t rest :=
  h.scan_of_endsBefore (hrest.endsBefore t)

private theorem Lexes.wellFormed {t : Token} {cs : List Char} {ts : List Token} (ht : t.WellFormed)
    (hcs : EndsToken cs) (h : Lexes cs ts) : Lexes (t.text.toList ++ cs) (t :: ts) := by
  have hblank := ht.not_blank
  refine .token ?_ (fun c hc => hblank c (List.mem_of_mem_head? hc))
    (fun rest hrest => ht.scan (hcs.of_head? hrest)) h
  intro hline
  exact absurd (hblank _ hline) (by decide)

/-! ### Layouts

Any gaps will do, as long as there is one between two tokens.  Often none would be needed; but to
ask for one is a rule that does not depend on the tokens.
-/

/-- Nothing but blanks. -/
def IsGap (cs : List Char) : Prop :=
  ∀ c ∈ cs, Text.isBlank c = true

instance (cs : List Char) : Decidable (IsGap cs) :=
  decidable_of_iff (cs.all Text.isBlank = true) List.all_eq_true

/-- A gap in front changes nothing. -/
theorem Lexes.gap {gap cs : List Char} {ts : List Token} (hgap : IsGap gap) (h : Lexes cs ts) :
    Lexes (gap ++ cs) ts := by
  induction gap with
  | nil => exact h
  | cons b gap ih =>
      have hrest : Lexes (gap ++ cs) ts := ih fun c hc => hgap c (List.mem_cons_of_mem b hc)
      by_cases hb : b = '\n'
      · rw [hb]
        exact hrest.newline
      · exact hrest.blank (hgap b (by simp)) hb

/-- A text of tokens, where each comes with the gap after it and `lead` is the gap before the
first. -/
def layOut (lead : List Char) : List (Token × List Char) → List Char
  | [] => lead
  | (t, gap) :: rest => lead ++ (t.text.toList ++ layOut gap rest)

/-- Gaps stand between the tokens; only the last may be empty. -/
def Separated : List (Token × List Char) → Prop
  | [] => True
  | [(_, gap)] => IsGap gap
  | (_, gap) :: rest => IsGap gap ∧ gap ≠ [] ∧ Separated rest

/-- A gap ends a token. -/
theorem endsToken_of_gap {gap : List Char} (hgap : IsGap gap) (hne : gap ≠ []) (cs : List Char) :
    EndsToken (gap ++ cs) := by
  obtain ⟨b, bs, rfl⟩ := List.exists_cons_of_ne_nil hne
  have hb : Text.isBlank b = true := hgap b (by simp)
  refine .cons (isWordChar_of_isBlank hb) ?_
  rintro rfl
  exact absurd hb (by decide)

/-- **Tokens laid out with gaps lex to these tokens.** -/
theorem lexes_layOut {pieces : List (Token × List Char)} : ∀ {lead : List Char}, IsGap lead →
    (∀ piece ∈ pieces, piece.1.WellFormed) → Separated pieces →
    Lexes (layOut lead pieces) (pieces.map (·.1)) := by
  induction pieces with
  | nil =>
      intro lead hlead _ _
      have hnil := Lexes.nil.gap hlead
      rw [List.append_nil] at hnil
      exact hnil
  | cons piece rest ih =>
      obtain ⟨t, gap⟩ := piece
      intro lead hlead hwell hseparated
      have ht : t.WellFormed := hwell (t, gap) (by simp)
      have hrest : ∀ piece ∈ rest, piece.1.WellFormed :=
        fun piece hpiece => hwell piece (List.mem_cons_of_mem _ hpiece)
      have htail : EndsToken (layOut gap rest) ∧ Lexes (layOut gap rest) (rest.map (·.1)) := by
        cases rest with
        | nil =>
            refine ⟨?_, ih hseparated hrest trivial⟩
            by_cases hgap : gap = []
            · rw [hgap]
              intro c hc
              cases hc
            · have hends := endsToken_of_gap hseparated hgap []
              rw [List.append_nil] at hends
              exact hends
        | cons next rest =>
            obtain ⟨hgap, hne, hseparated⟩ := hseparated
            exact ⟨endsToken_of_gap hgap hne _, ih hgap hrest hseparated⟩
      exact .gap hlead (.wellFormed ht htail.1 htail.2)

/-- **Laying tokens out and reading them are inverse to each other.**  Well-formed tokens with
gaps between them, in any number and with any line feeds among them, are read back; and
whatever token any source ever gives is well-formed. -/
theorem takeAll_layOut :
    (∀ (lead : List Char) (pieces : List (Token × List Char)), IsGap lead →
      (∀ piece ∈ pieces, piece.1.WellFormed) → Separated pieces →
      ∃ start ls, Lookahead.open? (.ofText (layOut lead pieces)) = .ok start ∧
        start.takeAll.1 = .ok ls ∧ ls.map Lexeme.token = pieces.map (·.1)) ∧
    ∀ (c after : Cursor) (l : Lexeme), c.next = .lexeme l after → l.token.WellFormed := by
  constructor
  · intro lead pieces hlead hwell hseparated
    obtain ⟨ls, htokenizes, htokens⟩ := (lexes_layOut hlead hwell hseparated).tokenizes
    obtain ⟨hcut, hlexemes⟩ := (Source.feed_eq_iff _ ls).mpr htokenizes
    have hall := Lookahead.takeAll_of_clear (s := ⟨[], Cursor.start _⟩) hcut
    refine ⟨_, ls, Lookahead.open?_eq _, ?_, htokens⟩
    rw [hall, List.nil_append]
    exact congrArg Except.ok hlexemes
  · intro c after l h
    obtain ⟨cs, rest, hscan⟩ := Cursor.scan_of_next h
    exact wellFormed_of_scan hscan

/-- An assignment over two lines, of a float that has every part but whole digits. -/
theorem takeAll_layOut_assignment :
    (∃ start ls, Lookahead.open? (.ofText "\tx\n:= .5E+3".toList) = .ok start ∧
      start.takeAll.1 = .ok ls ∧
      ls.map Lexeme.token = [.identifier "x", .assign, .float ".5E+3"]) ∧
    (Token.float ".5E+3").WellFormed := by
  have hfloat : IsFloatLiteral ".5E+3".toList :=
    @IsFloatLiteral.exponent ['.', '5'] ['E', '+', '3'] true (.fraction (by decide))
      (@IsExponent.mk 'E' ['+'] ['3'] (Or.inr rfl) (Or.inr (Or.inr rfl)) (by decide))
  have hwell : ∀ piece ∈ [(Token.identifier "x", ['\n']), (.assign, [' ']), (.float ".5E+3", [])],
      piece.1.WellFormed := by
    simp only [List.forall_mem_cons]
    exact ⟨show IsName "x" by decide, trivial, hfloat, by simp⟩
  exact ⟨takeAll_layOut.1 ['\t'] _ (by decide) hwell
      ⟨by decide, by decide, by decide, by decide, show IsGap [] by decide⟩,
    takeAll_layOut.2 ⟨".5E+3".toList, ⟨2, 4⟩, []⟩ ⟨[], ⟨2, 9⟩, []⟩ ⟨.float ".5E+3", ⟨2, 4⟩⟩ rfl⟩

end LoopFree
