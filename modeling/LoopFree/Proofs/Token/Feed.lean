/-
The tokens of a source, one `next` after another.

`Cursor.Yields` says what it is for a list of tokens to be all of a source: they are
what `next` gives, step by step, and after the last one the source is at its end.
`Cursor.feed` computes the same with a bound on its steps.  Every token takes a
character, so the bound is never met: `feed_eq_iff` says that the feed is cut off by no
failure exactly when its tokens are the ones the source yields.
-/
import LoopFree.Proofs.Token.Scan
import LoopFree.Token.Cursor

namespace LoopFree

namespace Cursor

/-- The tokens that `next` gives from a cursor on, up to the end of the source. -/
inductive Yields : Cursor → List Lexeme → Prop
  | done {c after : Cursor} (h : c.next = .done after) : Yields c []
  | lexeme {c after : Cursor} {l : Lexeme} {ls : List Lexeme} (h : c.next = .lexeme l after)
      (rest : Yields after ls) : Yields c (l :: ls)

/-! ### A token takes a character

The characters left are those of the line and of the lines behind it.  Passing over blanks, and
entering lines, never makes them more.
-/

@[simp] private theorem charsLeft_text (rest chars : List Char) (p : Position)
    (unread : List Line) :
    (Cursor.mk rest p (.text chars :: unread)).charsLeft
      = rest.length + chars.length + (Cursor.mk [] p unread).charsLeft := by
  simp [charsLeft, Nat.add_assoc]

private theorem charsLeft_skipBlanks (c : Cursor) : c.skipBlanks.charsLeft ≤ c.charsLeft := by
  have := (List.dropWhile_suffix (l := c.rest) Text.isBlank).length_le
  simp only [charsLeft, skipBlanks]
  omega

private theorem charsLeft_of_scanHere {c after : Cursor} {l : Lexeme}
    (h : c.scanHere = .lexeme l after) : after.charsLeft < c.charsLeft := by
  unfold scanHere at h
  split at h
  · rename_i t rest hscan
    cases h
    have := length_lt_of_scan hscan
    simp only [charsLeft]
    omega
  all_goals cases h

private theorem charsLeft_of_nextLine {lines : List Line} :
    ∀ {p : Position} {l : Lexeme} {after : Cursor}, nextLine p lines = .lexeme l after →
      after.charsLeft < (Cursor.mk [] p lines).charsLeft := by
  induction lines with
  | nil => intro p l after h; cases h
  | cons line unread ih =>
      intro p l after h
      cases line with
      | unreadable why => cases h
      | text chars =>
          have hskip := charsLeft_skipBlanks (enterLine chars p.line unread)
          have henter : (enterLine chars p.line unread).charsLeft
              = (Cursor.mk [] p (.text chars :: unread)).charsLeft := by
            simp [charsLeft, enterLine]
          rw [nextLine] at h
          split at h
          · have := ih h
            rw [charsLeft_text]
            simp only [charsLeft] at this ⊢
            omega
          · have := charsLeft_of_scanHere h
            omega

/-- **After a token there are fewer characters left.** -/
theorem charsLeft_of_next {c after : Cursor} {l : Lexeme} (h : c.next = .lexeme l after) :
    after.charsLeft < c.charsLeft := by
  have hskip := charsLeft_skipBlanks c
  unfold next at h
  simp only at h
  split at h
  · have := charsLeft_of_nextLine h
    simp only [charsLeft] at this hskip ⊢
    simp only [skipBlanks, List.length_nil] at this
    omega
  · have := charsLeft_of_scanHere h
    omega

/-! ### A token is scanned somewhere

What the scanner never does is never found in a source.  Here the way from a source to the scanner
is gone once, past blanks and lines.
-/

/-- Where no blank stands the next token is looked for. -/
theorem next_settled {b : Char} (hb : Text.isBlank b = false) (rest : List Char) (p : Position)
    (unread : List Line) :
    (Cursor.mk (b :: rest) p unread).next = (Cursor.mk (b :: rest) p unread).scanHere := by
  have hskip : (Cursor.mk (b :: rest) p unread).skipBlanks = Cursor.mk (b :: rest) p unread := by
    simp [skipBlanks, hb, Position.advance]
  simp only [next, hskip, List.isEmpty_cons, Bool.false_eq_true, if_false]

private theorem scan_of_scanHere {c after : Cursor} {l : Lexeme}
    (h : c.scanHere = .lexeme l after) :
    ∃ cs rest, scan cs = .token l.token rest := by
  unfold scanHere at h
  split at h
  · rename_i t rest hscan
    cases h
    exact ⟨c.rest, rest, hscan⟩
  all_goals cases h

private theorem scan_of_nextLine {lines : List Line} :
    ∀ {p : Position} {l : Lexeme} {after : Cursor}, nextLine p lines = .lexeme l after →
      ∃ cs rest, scan cs = .token l.token rest := by
  induction lines with
  | nil => intro p l after h; cases h
  | cons line unread ih =>
      intro p l after h
      cases line with
      | unreadable why => cases h
      | text chars =>
          rw [nextLine] at h
          split at h
          · exact ih h
          · exact scan_of_scanHere h

theorem scan_of_next {c after : Cursor} {l : Lexeme} (h : c.next = .lexeme l after) :
    ∃ cs rest, scan cs = .token l.token rest := by
  unfold next at h
  simp only at h
  split at h
  · exact scan_of_nextLine h
  · exact scan_of_scanHere h

/-- What holds of every scanned token holds of every token of a source. -/
theorem Yields.all_scanned {P : Token → Prop} {c : Cursor} {ls : List Lexeme} (h : c.Yields ls)
    (hP : ∀ cs t rest, scan cs = .token t rest → P t) : ∀ l ∈ ls, P l.token := by
  induction h with
  | done h =>
      intro l hl
      cases hl
  | lexeme h rest ih =>
      intro l hl
      rcases List.mem_cons.mp hl with rfl | hl
      · obtain ⟨cs, after, hscan⟩ := scan_of_next h
        exact hP _ _ _ hscan
      · exact ih l hl

/-! ### The bound on the steps is never met

The recursion that computes the tokens counts its steps, and the count has no meaning.  From here
on it is gone: there are equations for a step, and an induction that follows the steps.
-/

/-- A bound that is not met changes nothing. -/
theorem feedUpTo_eq {fuel : Nat} : ∀ {fuel' : Nat} {c : Cursor}, c.charsLeft < fuel →
    c.charsLeft < fuel' → feedUpTo fuel c = feedUpTo fuel' c := by
  induction fuel with
  | zero => intro fuel' c hlt _; omega
  | succ fuel ih =>
      intro fuel' c hlt hlt'
      cases fuel' with
      | zero => omega
      | succ fuel' =>
          unfold feedUpTo
          cases hnext : c.next with
          | done after => rfl
          | failed why after => rfl
          | lexeme l after =>
              have := charsLeft_of_next hnext
              show ({ feedUpTo fuel after with lexemes := _ } : Feed) = _
              rw [ih (by omega : after.charsLeft < fuel) (by omega : after.charsLeft < fuel')]

theorem feed_of_done {c after : Cursor} (h : c.next = .done after) :
    c.feed = ⟨[], none, after⟩ := by
  rw [feed, feedUpTo, h]

theorem feed_of_failed {c after : Cursor} {why : LexError} (h : c.next = .failed why after) :
    c.feed = ⟨[], some why, after⟩ := by
  rw [feed, feedUpTo, h]

theorem feed_of_lexeme {c after : Cursor} {l : Lexeme} (h : c.next = .lexeme l after) :
    c.feed = ⟨l :: after.feed.lexemes, after.feed.cut, after.feed.after⟩ := by
  have hlt := charsLeft_of_next h
  unfold feed
  rw [feedUpTo, h, feedUpTo_eq (Nat.lt_succ_self _) hlt]

/-- The feed depends on the next step alone. -/
theorem feed_congr {c c' : Cursor} (h : c.next = c'.next) : c.feed = c'.feed := by
  cases hnext : c'.next with
  | done after => rw [feed_of_done hnext, feed_of_done (h.trans hnext)]
  | failed why after => rw [feed_of_failed hnext, feed_of_failed (h.trans hnext)]
  | lexeme l after => rw [feed_of_lexeme hnext, feed_of_lexeme (h.trans hnext)]

/-- To prove something of every cursor, step on from one token to the next. -/
theorem next_induction {P : Cursor → Prop}
    (done : ∀ c after, c.next = .done after → P c)
    (failed : ∀ c why after, c.next = .failed why after → P c)
    (lexeme : ∀ c l after, c.next = .lexeme l after → P after → P c) (c : Cursor) : P c := by
  induction hn : c.charsLeft using Nat.strongRecOn generalizing c with
  | ind n ih =>
      cases hnext : c.next with
      | done after => exact done c after hnext
      | failed why after => exact failed c why after hnext
      | lexeme l after =>
          have hlt := charsLeft_of_next hnext
          exact lexeme c l after hnext (ih after.charsLeft (by omega) after rfl)

/-- **The feed of a cursor that does not fail is what the cursor yields.** -/
theorem feed_eq_iff (c : Cursor) (ls : List Lexeme) :
    c.feed.cut = none ∧ c.feed.lexemes = ls ↔ c.Yields ls := by
  constructor
  · rintro ⟨hcut, rfl⟩
    induction c using next_induction with
    | done c after hnext =>
        rw [feed_of_done hnext]
        exact .done hnext
    | failed c why after hnext =>
        rw [feed_of_failed hnext] at hcut
        cases hcut
    | lexeme c l after hnext ih =>
        rw [feed_of_lexeme hnext] at hcut ⊢
        exact .lexeme hnext (ih hcut)
  · intro h
    induction h with
    | done hnext =>
        rw [feed_of_done hnext]
        exact ⟨rfl, rfl⟩
    | lexeme hnext rest ih =>
        rw [feed_of_lexeme hnext]
        exact ⟨ih.1, congrArg _ ih.2⟩

end Cursor

namespace Source

/-- The whole source is cut into these tokens, without a failure. -/
def Tokenizes (s : Source) (ls : List Lexeme) : Prop :=
  (Cursor.start s).Yields ls

theorem feed_eq_iff (s : Source) (ls : List Lexeme) :
    s.feed.cut = none ∧ s.feed.lexemes = ls ↔ s.Tokenizes ls :=
  Cursor.feed_eq_iff _ _

/-- A source is cut into tokens in one way. -/
theorem Tokenizes.unique {s : Source} {ls ls' : List Lexeme} (h : s.Tokenizes ls)
    (h' : s.Tokenizes ls') : ls = ls' := by
  obtain ⟨-, rfl⟩ := (s.feed_eq_iff ls).mpr h
  exact ((s.feed_eq_iff ls').mpr h').2

end Source

end LoopFree
