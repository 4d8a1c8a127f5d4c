/-
What is ahead of a look-ahead.

`s.Ahead ts cut` says that the tokens `ts` are to be had from the look-ahead `s`, and that the
failure `cut`, if there is one, is met behind them.  How many of the tokens are held already does
not matter, and scanning for more of them changes nothing: a request is answered by `ts` and `cut`,
and the look-ahead behind it is known by what is ahead of it then.
-/
import LoopFree.Proofs.Token.Laziness

namespace LoopFree

/-- Every token takes a character. -/
theorem Cursor.length_lexemes_le (c : Cursor) : c.feed.lexemes.length ≤ c.charsLeft := by
  induction c using Cursor.next_induction with
  | done c after h =>
      rw [feed_of_done h]
      exact Nat.zero_le _
  | failed c why after h =>
      rw [feed_of_failed h]
      exact Nat.zero_le _
  | lexeme c l after h ih =>
      have hlt := charsLeft_of_next h
      rw [feed_of_lexeme h, List.length_cons]
      omega

namespace Lookahead

/-- These tokens are to be had before the failure, or before the end if there is none. -/
structure Ahead (s : Lookahead) (ts : List Lexeme) (cut : Option LexError) : Prop where
  clear : s.clear = ts
  cut : s.cursor.feed.cut = cut

/-- The same, and the first of the tokens is held. -/
structure Holds (s : Lookahead) (l : Lexeme) (rest : List Lexeme) (cut : Option LexError) : Prop
    extends s.Ahead (l :: rest) cut where
  head : s.held[0]? = some l

/-- What scanning for `n` tokens comes to where these tokens and this failure are ahead. -/
inductive Fills (ts : List Lexeme) (cut : Option LexError) (n : Nat) :
    Answer Bool × Lookahead → Prop
  | enough {s : Lookahead} (hahead : s.Ahead ts cut) (hheld : n ≤ s.held.length) :
      Fills ts cut n (.ok true, s)
  | ended {s : Lookahead} (hahead : s.Ahead ts cut) (hcut : cut = none) (hshort : ts.length < n) :
      Fills ts cut n (.ok false, s)
  | failed {s : Lookahead} {why : LexError} (hcut : cut = some why) (hshort : ts.length < n) :
      Fills ts cut n (.error why, s)

variable {s : Lookahead} {l : Lexeme} {ts rest : List Lexeme} {cut : Option LexError}

theorem ahead_start (source : Source) :
    Ahead ⟨[], Cursor.start source⟩ source.feed.lexemes source.feed.cut :=
  ⟨rfl, rfl⟩

theorem Ahead.length_le (h : s.Ahead ts cut) : ts.length ≤ s.tokensAtMost := by
  have hfeed := s.cursor.length_lexemes_le
  rw [← h.clear, Lookahead.clear, List.length_append, tokensAtMost]
  omega

/-- Scanning a token keeps what is ahead. -/
theorem Ahead.scanned {after : Cursor} (h : s.Ahead ts cut)
    (hnext : s.cursor.next = .lexeme l after) :
    Ahead ⟨s.held ++ [l], after⟩ ts cut := by
  have hfeed := Cursor.feed_of_lexeme hnext
  obtain ⟨hclear, hcut⟩ := h
  rw [Lookahead.clear, hfeed] at hclear
  rw [hfeed] at hcut
  refine ⟨?_, hcut⟩
  rw [← hclear, Lookahead.clear, List.append_assoc, List.singleton_append]

private theorem Ahead.scanMore (missing : Nat) : ∀ {s : Lookahead}, s.Ahead ts cut →
    Fills ts cut (s.held.length + missing) (s.scanMore missing) := by
  induction missing with
  | zero =>
      intro s h
      exact .enough h (Nat.le_refl _)
  | succ missing ih =>
      intro s h
      unfold Lookahead.scanMore
      cases hnext : s.cursor.next with
      | lexeme l after =>
          have hstep := ih (h.scanned hnext)
          rw [List.length_append, List.length_singleton, Nat.add_assoc, Nat.add_comm 1] at hstep
          exact hstep
      | done after =>
          have hfeed := Cursor.feed_of_done hnext
          have hts : ts = s.held := by
            rw [← h.clear, Lookahead.clear, hfeed, List.append_nil]
          have hcut : cut = none := by rw [← h.cut, hfeed]
          refine .ended ⟨?_, ?_⟩ hcut (by rw [hts]; omega)
          · rw [hts, Lookahead.clear, Cursor.feed_of_done (Cursor.next_of_done hnext),
              List.append_nil]
          · rw [hcut, Cursor.feed_of_done (Cursor.next_of_done hnext)]
      | failed why after =>
          have hfeed := Cursor.feed_of_failed hnext
          have hts : ts = s.held := by
            rw [← h.clear, Lookahead.clear, hfeed, List.append_nil]
          exact .failed (by rw [← h.cut, hfeed]) (by rw [hts]; omega)

/-- **Filling finds as many tokens as are ahead**, and keeps them there. -/
theorem Ahead.fill (h : s.Ahead ts cut) (n : Nat) : Fills ts cut n (s.fill n) := by
  have hfills := h.scanMore (n - s.held.length)
  unfold Lookahead.fill
  generalize s.scanMore (n - s.held.length) = r at hfills
  have hlt : ts.length < s.held.length + (n - s.held.length) → ts.length < n := by
    have hle : s.held.length ≤ ts.length := by
      rw [← h.clear, Lookahead.clear, List.length_append]
      omega
    omega
  cases hfills with
  | enough hahead hheld => exact .enough hahead (by omega)
  | ended hahead hcut hshort => exact .ended hahead hcut (hlt hshort)
  | failed hcut hshort => exact .failed hcut (hlt hshort)

/-- What is held are the first of the tokens ahead. -/
theorem Ahead.getElem? (h : s.Ahead ts cut) {i : Nat} (hi : i < s.held.length) :
    s.held[i]? = ts[i]? := by
  rw [← h.clear, Lookahead.clear, List.getElem?_append_left hi]

theorem Holds.eq_cons (h : s.Holds l rest cut) :
    ∃ held, s.held = l :: held ∧ Ahead { s with held := held } rest cut := by
  obtain ⟨held, hheld⟩ := List.head?_eq_some_iff.mp (List.head?_eq_getElem?.trans h.head)
  have hclear := h.clear
  rw [Lookahead.clear, hheld, List.cons_append, List.cons.injEq] at hclear
  exact ⟨held, hheld, hclear.2, h.cut⟩

/-- What asking for the next token comes to. -/
inductive Next (cut : Option LexError) :
    List Lexeme → Answer (Option Lexeme) × Lookahead → Prop
  | token {s : Lookahead} {l : Lexeme} {rest : List Lexeme} (hahead : s.Ahead rest cut) :
      Next cut (l :: rest) (.ok (some l), s)
  | ended {s : Lookahead} (hahead : s.Ahead [] cut) (hcut : cut = none) :
      Next cut [] (.ok none, s)
  | failed {s : Lookahead} {why : LexError} (hcut : cut = some why) :
      Next cut [] (.error why, s)

/-- **The next token is the first one ahead**, and the others are ahead then. -/
theorem Ahead.next? (h : s.Ahead ts cut) : Next cut ts s.next? := by
  have hfills := h.fill 1
  unfold Lookahead.next?
  generalize s.fill 1 = r at hfills
  cases hfills with
  | @enough s hahead hheld =>
      obtain ⟨l, held, hm⟩ := List.exists_cons_of_length_pos hheld
      have hclear := hahead.clear
      rw [Lookahead.clear, hm, List.cons_append] at hclear
      subst hclear
      simp only [hm]
      exact .token ⟨rfl, hahead.cut⟩
  | @ended s hahead hcut hshort =>
      obtain rfl : ts = [] := List.length_eq_zero_iff.mp (Nat.lt_one_iff.mp hshort)
      have hheld : s.held = [] := (List.append_eq_nil_iff.mp hahead.clear).1
      simp only [hheld]
      exact .ended hahead hcut
  | failed hcut hshort =>
      obtain rfl : ts = [] := List.length_eq_zero_iff.mp (Nat.lt_one_iff.mp hshort)
      exact .failed hcut

end Lookahead

end LoopFree
