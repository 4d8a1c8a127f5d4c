/-
Texts cut into tokens.

`Cuts` cuts a text up from the left: a blank is passed over, and otherwise a token is taken off
or cutting ends there.  It speaks of no lines and of no cursor.  Where a token stands is said by
the text before it: `Position.after` counts the lines and columns in that.

A cursor does the same to the lines of the text.  A token never runs over the end of its line,
and the scanner looks no further than at the character behind it, which is in the line as it is
in the text; so both take off the same tokens.  `Source.cuts_iff` says that what is read from a
text is what it is cut into.
-/
import LoopFree.Proofs.Token.Ending

namespace LoopFree

/-! ### Places

A place is that of whatever stands behind a given text.  There is no cursor in this, so places
that were reached in different ways can be compared.
-/

/-- The place of what follows a text: its line feeds make the line, and the characters after the
last of them the column. -/
def Position.after (before : List Char) : Position :=
  ⟨1 + before.count '\n', 1 + (before.reverse.takeWhile (· != '\n')).length⟩

/-- Along a line the column grows with the characters. -/
theorem Position.after_append (before : List Char) {run : List Char} (h : '\n' ∉ run) :
    after (before ++ run) = (after before).advance run.length := by
  have hrun : ∀ c ∈ run.reverse, (c != '\n') = true := by
    intro c hc
    rw [bne_iff_ne]
    rintro rfl
    exact h (List.mem_reverse.mp hc)
  unfold after advance
  rw [List.count_append, List.count_eq_zero_of_not_mem h, List.reverse_append,
    List.takeWhile_append_of_pos hrun, List.length_append, List.length_reverse]
  simp only [Position.mk.injEq]
  omega

theorem Position.after_concat (before : List Char) {c : Char} (h : c ≠ '\n') :
    after (before ++ [c]) = (after before).advance 1 :=
  after_append before fun hmem => h (List.mem_singleton.mp hmem).symm

/-- A line feed starts a line. -/
theorem Position.after_newline (before : List Char) :
    after (before ++ ['\n']) = ⟨(after before).line + 1, 1⟩ := by
  unfold after
  simp only [List.count_append, List.reverse_append, Position.mk.injEq]
  constructor
  · simp [Nat.add_assoc]
  · simp

theorem Token.WellFormed.newline_not_mem {t : Token} (h : t.WellFormed) :
    '\n' ∉ t.text.toList := by
  intro hmem
  exact absurd (h.not_blank _ hmem) (by decide)

/-! ### Cutting -/

/-- The first line of a text. -/
def headLine (text : List Char) : List Char :=
  (splitLines (· == '\n') text).headD []

theorem isPrefix_headLine (text : List Char) : headLine text <+: text := by
  have hflat := flatten_splitLines (· == '\n') text
  unfold headLine
  cases hlines : splitLines (· == '\n') text with
  | nil => exact List.nil_prefix
  | cons line lines =>
      rw [hlines, List.flatten_cons] at hflat
      exact ⟨lines.flatten, hflat⟩

private theorem headLine_append {run : List Char} (h : '\n' ∉ run) (text : List Char) :
    headLine (run ++ text) = run ++ headLine text :=
  congrArg Cursor.rest (Cursor.ofText_append ⟨1, 1⟩ run h text)

theorem head?_headLine (text : List Char) : (headLine text).head? = text.head? :=
  Cursor.ofText_head? ⟨1, 1⟩ text

/-- A token at the head of the first line is one at the head of the text. -/
theorem scan_of_headLine {text line : List Char} {t : Token}
    (h : scan (headLine text) = .token t line) : ∃ left, scan text = .token t left := by
  obtain ⟨hsplit, -⟩ := scan_append h
  obtain ⟨tail, rfl⟩ : t.text.toList <+: text :=
    (List.prefix_append _ _).trans (hsplit ▸ isPrefix_headLine text)
  rw [headLine_append (wellFormed_of_scan h).newline_not_mem] at h hsplit
  obtain rfl := List.append_cancel_left hsplit
  exact ⟨tail, scan_token_congr h (head?_headLine tail).symm⟩

theorem scan_cons_ne_nothing (c : Char) (cs : List Char) : scan (c :: cs) ≠ .nothing := by
  intro h
  unfold scan at h
  split at h
  · cases h
  · split at h
    · cases h
    · split at h <;> cases h

/-- The failure that a scan comes to at a place. -/
def Scan.failure? (p : Position) : Scan → Option LexError
  | unexpected c => some (.unexpectedCharacter c p)
  | malformed literal => some (.malformedExponent literal p)
  | _ => none

theorem Scan.failure?_eq_some {s : Scan} {p : Position} {why : LexError}
    (h : s.failure? p = some why) :
    (∃ c, s = .unexpected c ∧ why = .unexpectedCharacter c p) ∨
      ∃ literal, s = .malformed literal ∧ why = .malformedExponent literal p := by
  cases s with
  | unexpected c => exact Or.inl ⟨c, rfl, (Option.some.inj h).symm⟩
  | malformed literal => exact Or.inr ⟨literal, rfl, (Option.some.inj h).symm⟩
  | token | nothing => cases h

/-- The text, which stands after `before`, is cut into these tokens, up to this failure. -/
inductive Cuts : List Char → List Char → List Lexeme → Option LexError → Prop
  | ended {before : List Char} : Cuts before [] [] none
  | blank {b : Char} {before text : List Char} {ls : List Lexeme} {cut : Option LexError}
      (hb : Text.isBlank b = true) (h : Cuts (before ++ [b]) text ls cut) :
      Cuts before (b :: text) ls cut
  | lexeme {t : Token} {before text left : List Char} {ls : List Lexeme} {cut : Option LexError}
      (hscan : scan text = .token t left) (h : Cuts (before ++ t.text.toList) left ls cut) :
      Cuts before text (⟨t, .after before⟩ :: ls) cut
  | fails {b : Char} {before rest : List Char} {why : LexError} (hb : Text.isBlank b = false)
      (hscan : (scan (headLine (b :: rest))).failure? (.after before) = some why) :
      Cuts before (b :: rest) [] (some why)

namespace Cuts

/-- Nothing is cut into nothing. -/
theorem of_nil {before : List Char} {ls : List Lexeme} {cut : Option LexError}
    (h : Cuts before [] ls cut) : ls = [] := by
  cases h with
  | ended => rfl
  | lexeme hscan h => cases hscan

/-- **Texts one behind the other are cut one after the other**, if the last token of the first may
stand in front of anything. -/
theorem append {before text text' : List Char} {ls ls' : List Lexeme} {cut : Option LexError}
    (h : Cuts before text ls none) (hlast : ∀ l ∈ ls.getLast?, ∀ c, l.token.EndsBefore c)
    (h' : Cuts (before ++ text) text' ls' cut) : Cuts before (text ++ text') (ls ++ ls') cut := by
  generalize hcut : (none : Option LexError) = cut' at h
  induction h with
  | @ended before =>
      rw [List.append_nil] at h'
      exact h'
  | blank hb h ih =>
      rw [List.append_cons] at h'
      exact .blank hb (ih hlast h' hcut)
  | @lexeme t before text left ls _ hscan h ih =>
      obtain ⟨rfl, -⟩ := scan_append hscan
      rw [← List.append_assoc] at h'
      have hleft : ∀ l ∈ ls.getLast?, ∀ c, l.token.EndsBefore c := by
        intro l hl
        refine hlast l ?_
        rw [List.getLast?_cons, Option.mem_def.mp hl]
        rfl
      refine .lexeme ?_ (ih hleft h' hcut)
      rw [List.append_assoc]
      cases left with
      | cons c left => exact scan_token_congr hscan rfl
      | nil =>
          obtain rfl := h.of_nil
          exact (wellFormed_of_scan hscan).scan_of_endsBefore fun c _ => hlast _ rfl c
  | fails => cases hcut

end Cuts

/-! ### What a cursor reads

The cursor has the text in lines and enters one when it has left the one before.  Each of its
steps is one or more of cutting, and as a cursor reads one thing only, a text can be cut up in one
way only.
-/

namespace Cursor

/-- A blank at the head of a text is passed over, and the place moves on with it. -/
theorem feed_blank {b : Char} (hb : Text.isBlank b = true) (before text : List Char) :
    (ofText (.after before) (b :: text)).feed.lexemes
        = (ofText (.after (before ++ [b])) text).feed.lexemes ∧
      (ofText (.after before) (b :: text)).feed.cut
        = (ofText (.after (before ++ [b])) text).feed.cut := by
  by_cases hline : b = '\n'
  · subst hline
    rw [Position.after_newline]
    exact feed_nextLine (c := ofText (.after before) ('\n' :: text))
      (by simp [ofText, splitLines, skipBlanks, hb]) (by simp [ofText, splitLines])
  · have hsplit := ofText_append (.after before) [b]
      (fun h => hline (List.mem_singleton.mp h).symm) text
    have hnext : (ofText (.after before) (b :: text)).next
        = (ofText (.after (before ++ [b])) text).next := by
      rw [← List.singleton_append, hsplit, Position.after_concat before hline]
      exact next_blank hb _ _ _
    rw [feed_congr hnext]
    exact ⟨rfl, rfl⟩

/-- Where no blank stands the next token is looked for in the first line. -/
theorem next_ofText {b : Char} (hb : Text.isBlank b = false) (p : Position) (rest : List Char) :
    (ofText p (b :: rest)).next = (ofText p (b :: rest)).scanHere := by
  generalize hc : ofText p (b :: rest) = c
  have hhead : c.rest.head? = some b := by rw [← hc, ofText_head?]; rfl
  obtain ⟨chars, q, unread⟩ := c
  obtain ⟨line, rfl⟩ := List.head?_eq_some_iff.mp hhead
  exact next_settled hb line q unread

/-- A token of the text is the next one, and the place moves on with it. -/
theorem next_ofText_token {t : Token} {left : List Char} (before : List Char)
    (hscan : scan (t.text.toList ++ left) = .token t left) :
    (ofText (.after before) (t.text.toList ++ left)).next
      = .lexeme ⟨t, .after before⟩ (ofText (.after (before ++ t.text.toList)) left) := by
  have ht := wellFormed_of_scan hscan
  obtain ⟨c, cs, hcons⟩ := List.exists_cons_of_ne_nil (scan_append hscan).2
  have hc : Text.isBlank c = false := ht.not_blank c (by rw [hcons]; exact List.mem_cons_self)
  have hnext := next_ofText hc (.after before) (cs ++ left)
  rw [← List.cons_append, ← hcons] at hnext
  have hline := scan_token_congr hscan (ofText_head? (.after before) left)
  rw [hnext, ofText_append _ _ ht.newline_not_mem, scanHere, hline,
    Position.after_append before ht.newline_not_mem]
  rfl

private theorem scanHere_failed {c : Cursor} {why : LexError}
    (h : (scan c.rest).failure? c.position = some why) : c.scanHere = .failed why c := by
  rcases Scan.failure?_eq_some h with ⟨ch, hscan, rfl⟩ | ⟨literal, hscan, rfl⟩
  · rw [scanHere, hscan]
  · rw [scanHere, hscan]

end Cursor

/-- What a text is cut into is what is read from it. -/
theorem Cuts.feed {before text : List Char} {ls : List Lexeme} {cut : Option LexError}
    (h : Cuts before text ls cut) :
    (Cursor.ofText (.after before) text).feed.lexemes = ls ∧
      (Cursor.ofText (.after before) text).feed.cut = cut := by
  induction h with
  | ended => exact ⟨rfl, rfl⟩
  | @blank b before text ls cut hb h ih =>
      obtain ⟨hlexemes, hcut⟩ := Cursor.feed_blank hb before text
      rw [hlexemes, hcut]
      exact ih
  | @lexeme t before text left ls cut hscan h ih =>
      obtain ⟨rfl, -⟩ := scan_append hscan
      rw [Cursor.feed_of_lexeme (Cursor.next_ofText_token before hscan)]
      exact ⟨congrArg _ ih.1, ih.2⟩
  | @fails b before rest why hb hscan =>
      have hnext := (Cursor.next_ofText hb (.after before) rest).trans
        (Cursor.scanHere_failed hscan)
      rw [Cursor.feed_of_failed hnext]
      exact ⟨rfl, rfl⟩

/-- **Every text is cut up, into what is read from it.**  The induction is on the characters of the
text. -/
theorem cuts_ofText (text : List Char) : ∀ before : List Char,
    Cuts before text (Cursor.ofText (.after before) text).feed.lexemes
      (Cursor.ofText (.after before) text).feed.cut := by
  suffices hsome : ∀ before, ∃ ls cut, Cuts before text ls cut by
    intro before
    obtain ⟨ls, cut, h⟩ := hsome before
    obtain ⟨hls, hcut⟩ := h.feed
    rw [hls, hcut]
    exact h
  induction hn : text.length using Nat.strongRecOn generalizing text with
  | ind n ih =>
      intro before
      cases text with
      | nil => exact ⟨[], none, .ended⟩
      | cons b rest =>
          cases hb : Text.isBlank b with
          | true =>
              rw [List.length_cons] at hn
              obtain ⟨ls, cut, h⟩ := ih rest.length (by omega) rest rfl (before ++ [b])
              exact ⟨ls, cut, .blank hb h⟩
          | false =>
              obtain ⟨line, hline⟩ := List.head?_eq_some_iff.mp (head?_headLine (b :: rest))
              cases hscan : scan (headLine (b :: rest)) with
              | token t left =>
                  obtain ⟨left, hscan⟩ := scan_of_headLine hscan
                  have hlt := length_lt_of_scan hscan
                  obtain ⟨ls, cut, h⟩ :=
                    ih left.length (hn ▸ hlt) left rfl (before ++ t.text.toList)
                  exact ⟨_, cut, .lexeme hscan h⟩
              | unexpected c =>
                  exact ⟨[], _, .fails hb (by rw [hscan]; rfl)⟩
              | malformed literal => exact ⟨[], _, .fails hb (by rw [hscan]; rfl)⟩
              | nothing =>
                  rw [hline] at hscan
                  exact absurd hscan (scan_cons_ne_nothing b line)

namespace Source

/-- **What is read from a text is what the text is cut into.** -/
theorem cuts_iff (s : String) (ls : List Lexeme) (cut : Option LexError) :
    Cuts [] s.toList ls cut ↔ (ofString s).feed.lexemes = ls ∧ (ofString s).feed.cut = cut := by
  obtain ⟨hlexemes, hcut⟩ :=
    @Cursor.feed_nextLine (Cursor.start (.ofString s)) s.toList rfl rfl
  unfold Source.feed
  rw [hlexemes, hcut]
  constructor
  · exact Cuts.feed
  · rintro ⟨rfl, rfl⟩
    exact cuts_ofText s.toList []

/-- A text is cut up into what is read from it. -/
theorem cuts (s : String) : Cuts [] s.toList (ofString s).feed.lexemes (ofString s).feed.cut :=
  (cuts_iff s _ _).mpr ⟨rfl, rfl⟩

end Source

end LoopFree
