/-
Reading on past lines that cannot be read.

A line that cannot be read fails once and is gone; a character or a literal that is no
token stays in the way.  So the tokens that a cursor can ever give are those of the
source from which the unreadable lines are left out, up to the first failure that is
left.  `Source.tokens` and `Cursor.tokens` are defined that way, and `next_readable` says
that leaving the lines out changes no step but the ones that fail at them.
-/
import LoopFree.Proofs.Token.Feed

namespace LoopFree

/-- The line can be read. -/
def Line.isText : Line → Bool
  | text _ => true
  | unreadable _ => false

/-- The source without the lines that cannot be read. -/
def Source.readable (s : Source) : Source :=
  ⟨s.lines.filter Line.isText⟩

/-- The tokens of a source up to its end, or to the first character or literal that is none.
Lines that cannot be read are passed over. -/
def Source.tokens (s : Source) : List Lexeme :=
  s.readable.feed.lexemes

/-- The failure is met again when the source is read on. -/
def LexError.Persists : LexError → Prop
  | unexpectedCharacter .. | malformedExponent .. => True
  | _ => False

namespace Cursor

/-! ### Where a step leaves the cursor

A step that gives no token still moves the cursor, over blanks and lines.  Where it stands then
decides what the next step will come to, so the outcomes are told together with it.
-/

/-- A cursor whose blanks are skipped stands at something else. -/
theorem skipBlanks_settled {c : Cursor} (h : c.skipBlanks.rest.isEmpty = false) :
    c.skipBlanks.next = c.skipBlanks.scanHere := by
  obtain ⟨d, ds, hd⟩ := List.exists_cons_of_ne_nil (List.isEmpty_eq_false_iff.mp h)
  have hdrop : c.rest.dropWhile Text.isBlank = d :: ds := hd
  have hblank : Text.isBlank d = false := by
    have hne : c.rest.dropWhile Text.isBlank ≠ [] := by
      rw [hdrop]
      exact List.cons_ne_nil d ds
    have hhead := List.head_dropWhile_not Text.isBlank hne
    simpa only [hdrop, List.head_cons] using hhead
  unfold skipBlanks
  rw [hdrop]
  exact next_settled hblank _ _ _

/-- From the end of a line the source is at its end, or a line cannot be read, or a token is
looked for where something stands. -/
theorem nextLine_cases {lines : List Line} : ∀ p : Position,
    (∃ q, nextLine p lines = .done ⟨[], q, []⟩) ∨
    (∃ why q unread, nextLine p lines = .failed (.unreadable why) ⟨[], q, unread⟩) ∨
    ∃ d : Cursor, nextLine p lines = d.scanHere ∧ d.next = d.scanHere := by
  induction lines with
  | nil =>
      intro p
      exact Or.inl ⟨p, rfl⟩
  | cons line unread ih =>
      intro p
      cases line with
      | unreadable why => exact Or.inr (Or.inl ⟨why, p, unread, rfl⟩)
      | text chars =>
          unfold nextLine
          by_cases h : (enterLine chars p.line unread).skipBlanks.rest.isEmpty = true
          · simp only [if_pos h]
            exact ih _
          · simp only [if_neg h]
            exact Or.inr (Or.inr ⟨_, rfl, skipBlanks_settled (Bool.not_eq_true _ ▸ h)⟩)

/-- What a step can come to. -/
theorem next_cases (c : Cursor) :
    (∃ q, c.next = .done ⟨[], q, []⟩) ∨
    (∃ why q unread, c.next = .failed (.unreadable why) ⟨[], q, unread⟩) ∨
    ∃ d : Cursor, c.next = d.scanHere ∧ d.next = d.scanHere := by
  unfold next
  by_cases h : c.skipBlanks.rest.isEmpty = true
  · simp only [if_pos h]
    exact nextLine_cases _
  · simp only [if_neg h]
    exact Or.inr (Or.inr ⟨_, rfl, skipBlanks_settled (Bool.not_eq_true _ ▸ h)⟩)

/-- Where no token is found the cursor stays, and no line has been read. -/
theorem scanHere_stays {d : Cursor} :
    (∀ after, d.scanHere = .done after → after = d) ∧
    (∀ why after, d.scanHere = .failed why after → after = d ∧ why.Persists) := by
  unfold scanHere
  constructor
  · intro after h
    split at h <;> cases h
    rfl
  · intro why after h
    split at h <;> cases h <;> exact ⟨rfl, trivial⟩

/-- At the end of the source there is nothing more. -/
theorem next_of_done {c after : Cursor} (h : c.next = .done after) : after.next = .done after := by
  rcases next_cases c with ⟨q, hc⟩ | ⟨why, q, unread, hc⟩ | ⟨d, hc, hd⟩
  · rw [hc] at h
    cases h
    rfl
  · rw [hc] at h
    cases h
  · rw [hc] at h
    obtain rfl := scanHere_stays.1 after h
    rw [hd, h]

/-- A character or a literal that is no token is in the way for good. -/
theorem next_of_failed {c after : Cursor} {why : LexError} (h : c.next = .failed why after)
    (hwhy : why.Persists) : after.next = .failed why after := by
  rcases next_cases c with ⟨q, hc⟩ | ⟨why, q, unread, hc⟩ | ⟨d, hc, hd⟩
  · rw [hc] at h
    cases h
  · rw [hc] at h
    cases h
    exact hwhy.elim
  · rw [hc] at h
    obtain ⟨rfl, -⟩ := scanHere_stays.2 why after h
    rw [hd, h]

/-! ### Lines that cannot be read

Steps are compared with those of a cursor that never meets such lines.  Only at such a line do
they differ: there the one fails, and the other goes on as the first one will when it is asked
again.
-/

/-- The cursor without the lines to come that cannot be read. -/
def readable (c : Cursor) : Cursor :=
  { c with unread := c.unread.filter Line.isText }

@[simp] private theorem readable_rest (c : Cursor) : c.readable.rest = c.rest := rfl

/-- The tokens from a cursor on, as `Source.tokens` counts them. -/
def tokens (c : Cursor) : List Lexeme :=
  c.readable.feed.lexemes

/-- The same step where lines that cannot be read are left out. -/
def Step.readable : Step → Step
  | .lexeme l after => .lexeme l after.readable
  | .done after => .done after.readable
  | .failed (.unreadable _) after => after.readable.next
  | .failed why after => .failed why after.readable

private theorem scanHere_readable (c : Cursor) : c.readable.scanHere = c.scanHere.readable := by
  unfold scanHere
  rw [readable_rest]
  cases scan c.rest <;> rfl

private theorem nextLine_readable {lines : List Line} : ∀ p : Position,
    nextLine p (lines.filter Line.isText) = (nextLine p lines).readable := by
  induction lines with
  | nil =>
      intro p
      rfl
  | cons line unread ih =>
      intro p
      cases line with
      | unreadable why =>
          show nextLine p (unread.filter Line.isText)
            = (Cursor.mk [] p (unread.filter Line.isText)).next
          rfl
      | text chars =>
          show nextLine p (.text chars :: unread.filter Line.isText) = _
          unfold nextLine
          have henter : (enterLine chars p.line (unread.filter Line.isText)).skipBlanks
              = (enterLine chars p.line unread).skipBlanks.readable := rfl
          by_cases h : (enterLine chars p.line unread).skipBlanks.rest.isEmpty = true
          · simp only [if_pos h]
            rw [henter, readable_rest, if_pos h]
            exact ih _
          · simp only [if_neg h]
            rw [henter, readable_rest, if_neg h]
            exact scanHere_readable _

/-- Leaving out the lines that cannot be read changes a step only where it would fail at one. -/
theorem next_readable (c : Cursor) : c.readable.next = c.next.readable := by
  have hskip : c.readable.skipBlanks = c.skipBlanks.readable := rfl
  unfold next
  by_cases h : c.skipBlanks.rest.isEmpty = true
  · simp only [if_pos h]
    rw [hskip, readable_rest, if_pos h]
    exact nextLine_readable _
  · simp only [if_neg h]
    rw [hskip, readable_rest, if_neg h]
    exact scanHere_readable _

theorem next_readable_of {c : Cursor} {step : Step} (h : c.next = step) :
    c.readable.next = step.readable := by
  rw [next_readable, h]

section Tokens

variable {c after : Cursor}

theorem tokens_of_lexeme {l : Lexeme} (h : c.next = .lexeme l after) :
    c.tokens = l :: after.tokens := by
  unfold tokens
  rw [feed_of_lexeme (next_readable_of h)]

theorem tokens_of_done (h : c.next = .done after) : c.tokens = [] := by
  unfold tokens
  rw [feed_of_done (next_readable_of h)]

/-- A step that fails loses no token. -/
theorem tokens_of_failed {why : LexError} (h : c.next = .failed why after) :
    c.tokens = after.tokens := by
  have hnext : c.readable.next = after.readable.next := by
    rcases next_cases c with ⟨q, hc⟩ | ⟨why, q, unread, hc⟩ | ⟨d, hc, hd⟩
    · rw [hc] at h
      cases h
    · rw [next_readable, hc]
      rw [hc] at h
      cases h
      rfl
    · rw [hc] at h
      obtain ⟨rfl, -⟩ := scanHere_stays.2 why after h
      rw [next_readable, next_readable, hc, hd]
  unfold tokens
  rw [feed_congr hnext]

/-- Where there is no failure they are all the tokens. -/
theorem feed_eq_tokens (c : Cursor) : c.feed.cut = none → c.feed.lexemes = c.tokens := by
  induction c using next_induction with
  | done c after h =>
      intro _
      rw [feed_of_done h, tokens_of_done h]
  | failed c why after h =>
      rw [feed_of_failed h]
      intro hcut
      cases hcut
  | lexeme c l after h ih =>
      rw [feed_of_lexeme h, tokens_of_lexeme h]
      intro hcut
      show l :: after.feed.lexemes = _
      rw [ih hcut]

/-- The failure that cuts the tokens off, if it persists, is where the feed leaves the cursor. -/
theorem next_after_feed {why : LexError} (hwhy : why.Persists) (c : Cursor) :
    c.feed.cut = some why → c.feed.after.next = .failed why c.feed.after := by
  induction c using next_induction with
  | done c after h =>
      rw [feed_of_done h]
      intro hcut
      cases hcut
  | failed c why' after h =>
      rw [feed_of_failed h]
      intro hcut
      obtain rfl : why' = why := Option.some.inj hcut
      exact next_of_failed h hwhy
  | lexeme c l after h ih =>
      rw [feed_of_lexeme h]
      exact ih

end Tokens

end Cursor

end LoopFree
