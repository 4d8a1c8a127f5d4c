/-
Texts read token by token.

`Lexes cs ts` says that the text `cs` is cut into the tokens `ts`, wherever in a source
it stands.  The rules below build such facts from the back: a text that begins with the
spelling of a token has that token first, and a blank or a line feed at the head changes
nothing.  A token never looks past the end of its line, so the lines of the text need
no mention; `Cursor.ofText` is where they are dealt with.
-/
import LoopFree.Proofs.Token.Feed
import LoopFree.Proofs.Token.Spelling

namespace LoopFree

/-! ### Lines

A cursor holds the rest of a line, and the lines behind it apart.  Together they are one text, and
`Cursor.ofText` goes from the text to the cursor, wherever in a line that is.
-/

/-- A character that is no line feed joins the first line of the rest. -/
theorem splitLines_cons {c : Char} (h : c ≠ '\n') (cs : List Char) :
    splitLines (· == '\n') (c :: cs)
      = (c :: (splitLines (· == '\n') cs).headD []) :: (splitLines (· == '\n') cs).tail := by
  rw [splitLines, if_neg (by simpa using h)]
  cases splitLines (· == '\n') cs <;> rfl

theorem splitLines_eq_nil {α : Type} {ends : α → Bool} {as : List α}
    (h : splitLines ends as = []) : as = [] := by
  rw [← flatten_splitLines ends as, h, List.flatten_nil]

namespace Cursor

/-- In a line whose rest, with the lines after it, is the text `cs`. -/
def ofText (p : Position) (cs : List Char) : Cursor :=
  ⟨(splitLines (· == '\n') cs).headD [], p, (splitLines (· == '\n') cs).tail.map .text⟩

/-- What stands before the end of the line belongs to the line. -/
theorem ofText_append (p : Position) (run : List Char) (h : '\n' ∉ run) (cs : List Char) :
    ofText p (run ++ cs) = { ofText p cs with rest := run ++ (ofText p cs).rest } := by
  induction run with
  | nil => rfl
  | cons c run ih =>
      simp only [List.mem_cons, not_or] at h
      have hrest := ih h.2
      simp only [ofText, Cursor.mk.injEq] at hrest ⊢
      rw [List.cons_append, splitLines_cons (Ne.symm h.1)]
      simp only [List.headD_cons, List.tail_cons, List.cons_append, List.cons.injEq, true_and]
      exact ⟨hrest.1, hrest.2.2⟩

/-- The rest of the line starts as the text does. -/
theorem ofText_head? (p : Position) (cs : List Char) :
    (ofText p cs).rest.head? = cs.head? := by
  cases cs with
  | nil => rfl
  | cons c cs =>
      by_cases hc : c = '\n'
      · subst hc
        simp [ofText, splitLines]
      · simp only [ofText, splitLines_cons hc, List.headD_cons, List.head?_cons]

/-- What a cursor yields depends on its next step alone. -/
theorem Yields.congr {c c' : Cursor} {ls : List Lexeme} (h : c.next = c'.next)
    (hy : c'.Yields ls) : c.Yields ls := by
  cases hy with
  | done hd => exact .done (h.trans hd)
  | lexeme hl rest => exact .lexeme (h.trans hl) rest

/-- A blank at the head of the line is passed over. -/
theorem next_blank {b : Char} (hb : Text.isBlank b = true) (rest : List Char) (p : Position)
    (unread : List Line) :
    (Cursor.mk (b :: rest) p unread).next = (Cursor.mk rest (p.advance 1) unread).next := by
  have hskip : (Cursor.mk (b :: rest) p unread).skipBlanks
      = (Cursor.mk rest (p.advance 1) unread).skipBlanks := by
    simp [skipBlanks, hb, Position.advance, Nat.add_comm, Nat.add_left_comm]
  simp only [next, hskip]

/-- A token at the head of the line is the next one. -/
theorem next_token {run : List Char} {t : Token} (rest : List Char) (p : Position)
    (unread : List Line)
    (hblank : ∀ c ∈ run.head?, Text.isBlank c = false)
    (hscan : scan (run ++ rest) = .token t rest) :
    ∃ q, (Cursor.mk (run ++ rest) p unread).next = .lexeme ⟨t, p⟩ ⟨rest, q, unread⟩ := by
  have hne : run ≠ [] := by
    rintro rfl
    exact absurd (length_lt_of_scan hscan) (by simp)
  obtain ⟨c, cs, rfl⟩ := List.exists_cons_of_ne_nil hne
  have hc : Text.isBlank c = false := hblank c (by simp)
  refine ⟨p.advance t.text.toList.length, ?_⟩
  rw [List.cons_append] at hscan ⊢
  rw [next_settled hc, scanHere, hscan]

end Cursor

/-! ### Texts -/

/-- Wherever the text stands, it is cut into these tokens. -/
def Lexes (cs : List Char) (ts : List Token) : Prop :=
  ∀ p, ∃ ls, (Cursor.ofText p cs).Yields ls ∧ ls.map Lexeme.token = ts

theorem Lexes.nil : Lexes [] [] :=
  fun _ => ⟨[], .done rfl, rfl⟩

/-- A token in front, where its spelling is scanned whatever the rest of the line is. -/
theorem Lexes.token {run cs : List Char} {t : Token} {ts : List Token} (hline : '\n' ∉ run)
    (hblank : ∀ c ∈ run.head?, Text.isBlank c = false)
    (hscan : ∀ rest : List Char, rest.head? = cs.head? → scan (run ++ rest) = .token t rest)
    (h : Lexes cs ts) : Lexes (run ++ cs) (t :: ts) := by
  intro p
  obtain ⟨q, hnext⟩ := Cursor.next_token (Cursor.ofText p cs).rest p
    (Cursor.ofText p cs).unread hblank (hscan _ (Cursor.ofText_head? p cs))
  obtain ⟨ls, hy, rfl⟩ := h q
  refine ⟨⟨t, p⟩ :: ls, ?_, rfl⟩
  rw [Cursor.ofText_append p run hline]
  exact .lexeme hnext hy

/-- A blank in front changes nothing. -/
theorem Lexes.blank {b : Char} {cs : List Char} {ts : List Token} (hb : Text.isBlank b = true)
    (hline : b ≠ '\n') (h : Lexes cs ts) : Lexes (b :: cs) ts := by
  intro p
  obtain ⟨ls, hy, rfl⟩ := h (p.advance 1)
  refine ⟨ls, ?_, rfl⟩
  have hsplit : Cursor.ofText p (b :: cs)
      = { Cursor.ofText p cs with rest := b :: (Cursor.ofText p cs).rest } :=
    Cursor.ofText_append p [b] (by simpa using hline.symm) cs
  rw [hsplit]
  exact hy.congr (Cursor.next_blank hb _ _ _)

/-- A line that is entered is read from its start. -/
theorem Cursor.nextLine_text (p : Position) (chars : List Char) (unread : List Line) :
    Cursor.nextLine p (.text chars :: unread)
      = (Cursor.enterLine chars p.line unread).next := rfl

/-- From the end of a line the text at the start of the next one is read. -/
theorem Cursor.feed_nextLine {c : Cursor} {cs : List Char} (hrest : c.skipBlanks.rest = [])
    (hunread : c.unread = (splitLines (· == '\n') cs).map .text) :
    c.feed.lexemes = (Cursor.ofText ⟨c.position.line + 1, 1⟩ cs).feed.lexemes ∧
      c.feed.cut = (Cursor.ofText ⟨c.position.line + 1, 1⟩ cs).feed.cut := by
  have hnext : c.next = Cursor.nextLine c.skipBlanks.position c.unread := by
    have hskip : c.skipBlanks.unread = c.unread := rfl
    simp only [Cursor.next, hrest, hskip, List.isEmpty_nil, if_true]
  cases hlines : splitLines (· == '\n') cs with
  | nil =>
      have hcs : cs = [] := splitLines_eq_nil hlines
      have hdone : c.next = .done ⟨[], c.skipBlanks.position, []⟩ := by
        rw [hnext, hunread, hlines]
        rfl
      rw [Cursor.feed_of_done hdone, hcs]
      exact ⟨rfl, rfl⟩
  | cons line lines =>
      have hstep : c.next = (Cursor.ofText ⟨c.position.line + 1, 1⟩ cs).next := by
        rw [hnext, hunread, hlines, List.map_cons, Cursor.nextLine_text]
        simp [Cursor.ofText, hlines, Cursor.enterLine, Cursor.skipBlanks, Position.advance]
      rw [Cursor.feed_congr hstep]
      exact ⟨rfl, rfl⟩

/-- A text at the start of the next line is reached from the end of the line before. -/
theorem Lexes.nextLine {cs : List Char} {ts : List Token} (h : Lexes cs ts) {c : Cursor}
    (hrest : c.skipBlanks.rest = []) (hunread : c.unread = (splitLines (· == '\n') cs).map .text) :
    ∃ ls, c.Yields ls ∧ ls.map Lexeme.token = ts := by
  obtain ⟨ls, hy, hts⟩ := h ⟨c.position.line + 1, 1⟩
  obtain ⟨hlexemes, hcut⟩ := Cursor.feed_nextLine hrest hunread
  refine ⟨ls, (Cursor.feed_eq_iff c ls).mp ?_, hts⟩
  rw [hlexemes, hcut]
  exact (Cursor.feed_eq_iff _ ls).mpr hy

/-- A line feed in front changes nothing. -/
theorem Lexes.newline {cs : List Char} {ts : List Token} (h : Lexes cs ts) :
    Lexes ('\n' :: cs) ts := by
  intro p
  have hblank : Text.isBlank '\n' = true := by decide
  exact h.nextLine (c := Cursor.ofText p ('\n' :: cs))
    (by simp [Cursor.ofText, splitLines, Cursor.skipBlanks, hblank])
    (by simp [Cursor.ofText, splitLines])

/-- **A text that lexes to tokens is a source of these tokens.** -/
theorem Lexes.tokenizes {cs : List Char} {ts : List Token} (h : Lexes cs ts) :
    ∃ ls, (Source.ofText cs).Tokenizes ls ∧ ls.map Lexeme.token = ts :=
  h.nextLine (c := Cursor.start (Source.ofText cs)) rfl rfl

/-! ### Tokens in front of a text

An operator in front of a text is read as it is, for nothing goes on one.  A word or a number is
only if the text does not go on it, and to see that its first character is enough.
-/

/-- The text starts with a character that ends a word or a number. -/
theorem EndsToken.of_head? {rest cs : List Char} (hcs : EndsToken cs)
    (h : rest.head? = cs.head?) : EndsToken rest := by
  unfold EndsToken
  rw [h]
  exact hcs

theorem EndsToken.cons {c : Char} {cs : List Char} (hword : isWordChar c = false)
    (hpoint : c ≠ '.') : EndsToken (c :: cs) := by
  intro d hd
  rw [List.head?_cons, Option.mem_some_iff] at hd
  rw [← hd]
  exact ⟨hword, hpoint⟩

/-- No operator holds a line feed. -/
theorem newline_not_mem_operators : ∀ e ∈ operators, '\n' ∉ e.1.toList := by
  decide

theorem Lexes.operator {e : Entry} {cs : List Char} {ts : List Token} (he : e ∈ operators)
    (h : Lexes cs ts) : Lexes (e.1.toList ++ cs) (e.2 :: ts) :=
  .token (newline_not_mem_operators e he) (fun c hc => (head_of_mem_operators e he c hc).2.2)
    (fun rest _ => scan_operator e he rest) h

theorem isWordChar_of_mem {w : List Char} (hw : isWord w = true) :
    ∀ c ∈ w, isWordChar c = true := by
  cases w with
  | nil => cases hw
  | cons c cs =>
      obtain ⟨hc, hcs⟩ := Bool.and_eq_true_iff.mp hw
      intro d hd
      rcases List.mem_cons.mp hd with rfl | hd
      · exact isWordChar_of_isWordStart hc
      · exact List.all_eq_true.mp hcs d hd

/-- No character of a word is a line feed. -/
theorem newline_not_mem_of_isWordChar {w : List Char} (hw : ∀ c ∈ w, isWordChar c = true) :
    '\n' ∉ w := by
  intro hmem
  exact absurd (hw _ hmem) (by decide)

theorem Lexes.word {w : String} {cs : List Char} {ts : List Token}
    (hw : isWord w.toList = true) (hcs : EndsToken cs) (h : Lexes cs ts) :
    Lexes (w.toList ++ cs) (.ofWord w :: ts) := by
  have hchars := isWordChar_of_mem hw
  refine .token (newline_not_mem_of_isWordChar hchars) ?_ (fun rest hrest => ?_) h
  · intro c hc
    exact isBlank_of_isWordChar (hchars c (List.mem_of_mem_head? hc))
  · have hscan := scan_word hw fun c hc => (hcs.of_head? hrest c hc).1
    rw [String.ofList_toList] at hscan
    exact hscan

theorem Lexes.integer {digits cs : List Char} {ts : List Token} (hne : digits ≠ [])
    (hdigits : ∀ c ∈ digits, c.isDigit = true) (hcs : EndsToken cs) (h : Lexes cs ts) :
    Lexes (digits ++ cs) (.integer (String.ofList digits) :: ts) := by
  have hchars : ∀ c ∈ digits, isWordChar c = true :=
    fun c hc => isWordChar_of_isDigit (hdigits c hc)
  refine .token (newline_not_mem_of_isWordChar hchars) ?_ (fun rest hrest => ?_) h
  · intro c hc
    exact isBlank_of_isWordChar (hchars c (List.mem_of_mem_head? hc))
  · exact scan_integer (hcs.of_head? hrest) hne hdigits

theorem Lexes.float {run cs : List Char} {ts : List Token} (hrun : IsFloatText run)
    (hcs : EndsToken cs) (h : Lexes cs ts) :
    Lexes (run ++ cs) (.float (String.ofList run) :: ts) := by
  have hblank := hrun.isFloatLiteral.not_blank
  refine .token ?_ (fun c hc => hblank c (List.mem_of_mem_head? hc)) (fun rest hrest => ?_) h
  · intro hline
    exact absurd (hblank _ hline) (by decide)
  · have hends := hcs.of_head? hrest
    exact scan_floatLiteral hrun.isFloatLiteral hends.not_isDigit fun _ _ => hends.not_exponent

end LoopFree
