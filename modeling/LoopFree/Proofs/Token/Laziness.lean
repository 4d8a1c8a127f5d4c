/-
Look-ahead reads no further than it must.

The tokens that a look-ahead can hand out before any failure, `Lookahead.clear`, are those it
holds and those its cursor gives.  A request that needs no more than these is answered from them,
and leaves those of them that it has not handed out (`serve_clear`).  The answer depends only on as
many of them as it needs, so two look-aheads that begin with the same tokens answer alike for as
long as only these are needed (`answers_of_prefix`), whatever would come behind.

The tokens of a text whose last line is ended are those with which it begins however it goes on.
-/
import LoopFree.Proofs.Token.Lines
import LoopFree.Proofs.Token.Lookahead

namespace LoopFree

namespace Lookahead

/-! ### Tokens before a failure

A source may be spoiled further on, by a character or by bytes.  Whoever asks only for tokens in
front of that should not notice, whether they are held already or have still to be scanned.
-/

/-- The tokens that are to be had before any failure. -/
def clear (s : Lookahead) : List Lexeme :=
  s.held ++ s.cursor.feed.lexemes

private theorem scanMore_clear (missing : Nat) : ∀ s : Lookahead,
    missing ≤ s.cursor.feed.lexemes.length → (scanMore missing s).2.clear = s.clear := by
  induction missing with
  | zero =>
      intro s _
      rfl
  | succ missing ih =>
      intro s hmissing
      unfold scanMore
      cases hnext : s.cursor.next with
      | done after =>
          rw [Cursor.feed_of_done hnext] at hmissing
          exact absurd hmissing (Nat.not_succ_le_zero missing)
      | failed why after =>
          rw [Cursor.feed_of_failed hnext] at hmissing
          exact absurd hmissing (Nat.not_succ_le_zero missing)
      | lexeme l after =>
          have hfeed := Cursor.feed_of_lexeme hnext
          rw [hfeed] at hmissing
          refine (ih ⟨s.held ++ [l], after⟩ (Nat.le_of_succ_le_succ hmissing)).trans ?_
          rw [clear, clear, hfeed, List.append_assoc, List.singleton_append]

section Serve

variable {s : Lookahead} {r : Request} (hneeds : r.needs ≤ s.clear.length)
include hneeds

private theorem obstacle_of_clear : s.obstacle r.needs = none := by
  rw [clear, List.length_append] at hneeds
  exact if_pos hneeds

/-- What is handed out comes from the head of these tokens, and the rest of them is left. -/
theorem serve_clear : handedOut (s.serve r).1 ++ (s.serve r).2.clear = s.clear := by
  have hfill : (s.fill r.needs).2.clear = s.clear := by
    refine scanMore_clear _ s ?_
    rw [clear, List.length_append] at hneeds
    omega
  have hfilled : (s.fill r.needs).2.remaining = s.remaining :=
    (scanMore_scanned (r.needs - s.held.length) s).remaining
  have hserved := (serve_served s r).remaining
  -- Serving moves the cursor only by filling, so what it gives behind the queue is the same.
  rw [← hfilled, remaining, remaining, serve_cursor, ← List.append_assoc] at hserved
  rw [← hfill, clear, clear, serve_cursor, ← List.append_assoc, List.append_cancel_right hserved]

end Serve

/-- They are the first of the tokens that remain. -/
theorem clear_prefix_remaining (s : Lookahead) : s.clear <+: s.remaining := by
  have hcursor : ∀ c : Cursor, c.feed.lexemes <+: c.tokens := by
    intro c
    induction c using Cursor.next_induction with
    | done c after h =>
        rw [Cursor.feed_of_done h]
        exact List.nil_prefix
    | failed c why after h =>
        rw [Cursor.feed_of_failed h]
        exact List.nil_prefix
    | lexeme c l after h ih =>
        rw [Cursor.feed_of_lexeme h, Cursor.tokens_of_lexeme h]
        exact List.cons_prefix_cons.mpr ⟨rfl, ih⟩
  exact (List.prefix_append_right_inj s.held).mpr (hcursor s.cursor)

/-! ### Answers

The two look-aheads need have nothing in common behind the tokens with which both begin.  So the
requests are bounded beforehand, by what a plain list would have to hold for them.
-/

/-- **A list that is long enough for a request answers it by its first tokens alone**, and hands out
some of these. -/
theorem Request.expected_of_prefix {r : Request} {P : List Lexeme} (hneeds : r.needs ≤ P.length) :
    ∃ reply, handedOut (.ok reply) <+: P ∧ ∀ ls, P <+: ls → r.expected ls = .ok reply := by
  cases r with
  | hasNext n =>
      refine ⟨.verdict true, List.nil_prefix, fun ls h => ?_⟩
      have hn : n ≤ ls.length := Nat.le_trans hneeds h.length_le
      rw [expected, decide_eq_true hn]
  | peek offset =>
      refine ⟨.token P[offset].token, List.nil_prefix, ?_⟩
      rintro _ ⟨tail, rfl⟩
      rw [expected, List.getElem?_append_left hneeds, List.getElem?_eq_getElem hneeds]
  | peekLexeme offset =>
      refine ⟨.lexeme P[offset], List.nil_prefix, ?_⟩
      rintro _ ⟨tail, rfl⟩
      rw [expected, List.getElem?_append_left hneeds, List.getElem?_eq_getElem hneeds]
  | take n =>
      refine ⟨.taken (P.take n), List.take_prefix n P, ?_⟩
      rintro _ ⟨tail, rfl⟩
      have hn : n ≤ P.length := hneeds
      have hall : n ≤ (P ++ tail).length := by
        rw [List.length_append]
        omega
      rw [expected, if_pos hall, List.take_append_of_le_length hn]
  | takeOne | next =>
      obtain ⟨l, P, rfl⟩ := List.exists_cons_of_length_pos hneeds
      refine ⟨.taken [l], List.prefix_append [l] P, ?_⟩
      rintro _ ⟨tail, rfl⟩
      rfl

/-- At no point do the requests need more than `m` tokens, those handed out before that included. -/
def NeedAtMost (m : Nat) (s : Lookahead) (rs : List Request) : Prop :=
  ∀ (i : Nat) (_ : i < rs.length), (s.serveAll (rs.take i)).1.length + rs[i].needs ≤ m

instance (m : Nat) (s : Lookahead) (rs : List Request) : Decidable (NeedAtMost m s rs) :=
  inferInstanceAs (Decidable (∀ (i : Nat) (_ : i < rs.length), _ ≤ m))

section NeedAtMost

variable {m : Nat} {s : Lookahead} {r : Request} {rs : List Request}
  (h : NeedAtMost m s (r :: rs))
include h

private theorem NeedAtMost.head : r.needs ≤ m := by
  have hfirst : 0 + r.needs ≤ m := h 0 (Nat.succ_pos _)
  omega

private theorem NeedAtMost.tail :
    NeedAtMost (m - (handedOut (s.serve r).1).length) (s.serve r).2 rs := by
  intro i hi
  have hlater : (handedOut (s.serve r).1 ++ ((s.serve r).2.serveAll (rs.take i)).1).length
      + rs[i].needs ≤ m := h (i + 1) (Nat.succ_lt_succ hi)
  rw [List.length_append] at hlater
  omega

end NeedAtMost

/-- **While requests need only tokens with which two look-aheads begin, both give the same
answers**, and none of them is an error. -/
theorem answers_of_prefix (rs : List Request) : ∀ {P : List Lexeme} {s s' : Lookahead},
    P <+: s.clear → P <+: s'.clear → NeedAtMost P.length s rs →
    s.answers rs = s'.answers rs ∧ ∀ answer ∈ s.answers rs, ∃ reply, answer = .ok reply := by
  induction rs with
  | nil =>
      intro P s s' _ _ _
      exact ⟨rfl, List.forall_mem_nil _⟩
  | cons r rs ih =>
      intro P s s' hP hP' h
      obtain ⟨reply, ⟨rest, hrest⟩, hreply⟩ := Request.expected_of_prefix h.head
      -- Either look-ahead answers by the tokens they share, and what it hands out is the same.
      have hserve : ∀ t : Lookahead, P <+: t.clear →
          (t.serve r).1 = .ok reply ∧ rest <+: (t.serve r).2.clear := by
        intro t ht
        have hneeds := Nat.le_trans h.head ht.length_le
        have hanswer : (t.serve r).1 = .ok reply := by
          rw [(serve_served t r).answer, obstacle_of_clear hneeds]
          exact hreply _ (ht.trans t.clear_prefix_remaining)
        have hclear := serve_clear hneeds
        rw [← hclear, hanswer, ← hrest] at ht
        exact ⟨hanswer, (List.prefix_append_right_inj _).mp ht⟩
      obtain ⟨hanswer, hnext⟩ := hserve s hP
      obtain ⟨hanswer', hnext'⟩ := hserve s' hP'
      have hlater := h.tail
      rw [hanswer, ← hrest, List.length_append, Nat.add_sub_cancel_left] at hlater
      obtain ⟨heq, hok⟩ := ih hnext hnext' hlater
      rw [answers, answers, hanswer, hanswer', heq]
      rw [heq] at hok
      exact ⟨rfl, List.forall_mem_cons.mpr ⟨⟨reply, rfl⟩, hok⟩⟩

end Lookahead

/-! ### Byte strings that go on

Bytes are cut into lines first and decoded one line at a time.  That is why bytes that are no
text, further on, leave the lines in front of them alone.
-/

namespace Source

/-- Behind a line that is ended others may come, and it stays as it is. -/
theorem ofBytes_append {bytes : List UInt8} (h : IsEnded (· == 10) bytes) (more : List UInt8) :
    ofBytes (bytes ++ more) = ⟨(ofBytes bytes).lines ++ (ofBytes more).lines⟩ := by
  rw [ofBytes, splitLines_append h, List.map_append]
  rfl

/-- So it gives its tokens first. -/
theorem feed_ofBytes_append {bytes : List UInt8} (h : IsEnded (· == 10) bytes)
    (more : List UInt8) :
    (ofBytes bytes).feed.lexemes <+: (ofBytes (bytes ++ more)).feed.lexemes := by
  rw [ofBytes_append h]
  exact (Cursor.start (ofBytes bytes)).lexemes_extend (ofBytes more).lines

end Source

namespace Lookahead

/-- **Look-ahead reads no further than it must.**  Where some bytes end with a line feed, requests
that need no tokens but those of these bytes are answered in the same way whatever follows them,
and never by an error. -/
theorem answers_lazy {bytes : List UInt8} (hended : bytes.getLast? = some 10)
    (more more' : List UInt8) :
    ∃ start start', open? (.ofBytes (bytes ++ more)) = .ok start ∧
      open? (.ofBytes (bytes ++ more')) = .ok start' ∧
      ∀ rs, NeedAtMost (Source.ofBytes bytes).feed.lexemes.length start rs →
        start.answers rs = start'.answers rs ∧
        ∀ answer ∈ start.answers rs, ∃ reply, answer = .ok reply := by
  have hline : IsEnded (· == 10) bytes := by
    intro b hb
    rw [hended] at hb
    rw [← Option.some.inj hb]
    rfl
  refine ⟨_, _, open?_eq _, open?_eq _, fun rs h => ?_⟩
  exact answers_of_prefix rs (Source.feed_ofBytes_append hline more)
    (Source.feed_ofBytes_append hline more') h

/-- A line of an assignment that is not finished.  All three of its tokens are looked at and two of
them taken, whether a line that is no text comes next or a character that is no token. -/
theorem answers_lazy_unfinished :
    let bytes : List UInt8 := [120, 58, 61, 50, 10]
    let rs : List Request := [.hasNext 3, .take 1, .peekLexeme 1, .takeOne]
    bytes = "x:=2\n".toUTF8.toList ∧ (Source.ofBytes bytes).feed.lexemes.length = 3 ∧
      ∃ start start', open? (.ofBytes (bytes ++ [255])) = .ok start ∧
        open? (.ofBytes (bytes ++ [64])) = .ok start' ∧ NeedAtMost 3 start rs ∧
        start.answers rs = start'.answers rs := by
  intro bytes rs
  have hlength : (Source.ofBytes bytes).feed.lexemes.length = 3 := by decide +kernel
  obtain ⟨start, start', hopen, hopen', hall⟩ :=
    @answers_lazy bytes (by decide) [255] [64]
  have hstart := (open?_eq _).symm.trans hopen
  have hneed : NeedAtMost 3 start rs := by
    rw [← Except.ok.inj hstart]
    decide +kernel
  rw [hlength] at hall
  exact ⟨by decide +kernel, hlength, start, start', hopen, hopen', hneed, (hall rs hneed).1⟩

end Lookahead

end LoopFree
