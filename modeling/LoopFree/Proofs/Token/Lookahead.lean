/-
Look-ahead never changes the tokens.

A look-ahead moves tokens from its cursor into a queue and hands them out from there, and
a request may fail with the queue half filled.  None of that shows.  Whatever has been
asked, the tokens handed out, the tokens held and the tokens the cursor still gives are,
in this order, the tokens of the source.

`Lookahead.remaining` is the list that a look-ahead stands for, and `Request.expected` is
how a plain list answers a request.  A look-ahead answers as its list does, but where a
failure stands between it and a token that the request needs; then it answers with the
failure.  Every request fills the queue first and then looks at nothing else, so what
filling comes to, `Filled`, carries all of them.
-/
import LoopFree.Proofs.Token.Unreadable
import LoopFree.Token.Lookahead

namespace LoopFree

namespace Lookahead

/-! ### Filling the queue

Filling moves tokens from the cursor to the queue, which changes neither the list of both nor its
order.  It ends with enough of them, or with a failure in front of the rest, or where there are no
more.
-/

/-- The tokens that a look-ahead has still to give: those it holds and those its cursor gives. -/
def remaining (s : Lookahead) : List Lexeme :=
  s.held ++ s.cursor.tokens

/-- The failure that stands between a look-ahead and the next `n` tokens, if one does. -/
def obstacle (n : Nat) (s : Lookahead) : Option LexError :=
  if n ≤ s.held.length + s.cursor.feed.lexemes.length then none else s.cursor.feed.cut

/-- What scanning for `missing` more tokens leaves. -/
structure Scanned (missing : Nat) (s after : Lookahead) (answer : Answer Bool) : Prop where
  held : after.held = s.held ++ s.cursor.feed.lexemes.take missing
  remaining : after.remaining = s.remaining
  cursor : s.cursor.feed.lexemes.length < missing → after.cursor = s.cursor.feed.after
  answer : answer =
    if missing ≤ s.cursor.feed.lexemes.length then .ok true
    else match s.cursor.feed.cut with
      | some why => .error why
      | none => .ok false

theorem scanMore_scanned (missing : Nat) : ∀ s : Lookahead,
    Scanned missing s (scanMore missing s).2 (scanMore missing s).1 := by
  induction missing with
  | zero =>
      intro s
      refine ⟨?_, rfl, ?_, rfl⟩
      · simp [scanMore]
      · intro h
        omega
  | succ missing ih =>
      intro s
      unfold scanMore
      cases hnext : s.cursor.next with
      | done after =>
          have htokens := Cursor.tokens_of_done hnext
          have hafter := Cursor.tokens_of_done (Cursor.next_of_done hnext)
          have hfeed := Cursor.feed_of_done hnext
          refine ⟨?_, ?_, ?_, ?_⟩
          · simp [hfeed]
          · simp [Lookahead.remaining, htokens, hafter]
          · intro _
            rw [hfeed]
          · simp [hfeed]
      | failed why after =>
          have htokens := Cursor.tokens_of_failed hnext
          have hfeed := Cursor.feed_of_failed hnext
          refine ⟨?_, ?_, ?_, ?_⟩
          · simp [hfeed]
          · simp [Lookahead.remaining, htokens]
          · intro _
            rw [hfeed]
          · simp [hfeed]
      | lexeme l after =>
          have htokens := Cursor.tokens_of_lexeme hnext
          have hfeed := Cursor.feed_of_lexeme hnext
          obtain ⟨hheld, hremaining, hcursor, hanswer⟩ := ih ⟨s.held ++ [l], after⟩
          refine ⟨?_, ?_, ?_, ?_⟩
          · simp [hheld, hfeed]
          · rw [hremaining]
            simp [Lookahead.remaining, htokens]
          · intro h
            rw [hfeed] at h ⊢
            exact hcursor (by simpa using h)
          · rw [hfeed]
            simpa using hanswer

/-- What filling the queue up to `n` tokens comes to. -/
inductive Filled (n : Nat) (s : Lookahead) : Answer Bool × Lookahead → Prop
  /-- A failure is in the way. -/
  | failed {why : LexError} {after : Lookahead} (hobstacle : s.obstacle n = some why)
      (hremaining : after.remaining = s.remaining) (hcut : s.cursor.feed.cut = some why)
      (hcursor : after.cursor = s.cursor.feed.after) : Filled n s (.error why, after)
  /-- As many tokens are held. -/
  | enough {after : Lookahead} (hclear : s.obstacle n = none)
      (hremaining : after.remaining = s.remaining) (hn : n ≤ after.held.length) :
      Filled n s (.ok true, after)
  /-- There are fewer, and all of them are held. -/
  | short {after : Lookahead} (hclear : s.obstacle n = none)
      (hremaining : after.remaining = s.remaining) (hheld : after.held = s.remaining)
      (hn : s.remaining.length < n) : Filled n s (.ok false, after)

private theorem fill_filled (n : Nat) (s : Lookahead) : Filled n s (s.fill n) := by
  obtain ⟨hheld, hremaining, hcursor, hanswer⟩ := scanMore_scanned (n - s.held.length) s
  rw [← fill] at hheld hremaining hcursor hanswer
  rcases hfill : s.fill n with ⟨answer, after⟩
  rw [hfill] at hheld hremaining hcursor hanswer
  dsimp only at hheld hremaining hcursor hanswer
  by_cases henough : n ≤ s.held.length + s.cursor.feed.lexemes.length
  · have hclear : s.obstacle n = none := if_pos henough
    rw [if_pos (by omega)] at hanswer
    rw [hanswer]
    refine .enough hclear hremaining ?_
    rw [hheld, List.length_append, List.length_take]
    omega
  · have hobstacle : s.obstacle n = s.cursor.feed.cut := if_neg henough
    rw [if_neg (by omega)] at hanswer
    cases hcut : s.cursor.feed.cut with
    | some why =>
        rw [hcut] at hanswer hobstacle
        rw [hanswer]
        exact .failed hobstacle hremaining hcut (hcursor (by omega))
    | none =>
        rw [hcut] at hanswer hobstacle
        rw [hanswer]
        have hall := Cursor.feed_eq_tokens s.cursor hcut
        have hlist : after.held = s.remaining := by
          rw [hheld, remaining, ← hall, List.take_of_length_le (by omega)]
        refine .short hobstacle hremaining hlist ?_
        rw [remaining, ← hall, List.length_append]
        omega

/-! ### Requests

A plain list could answer every request at once, with no cursor behind it that fails.  What it
would answer is computed beside what the look-ahead does, and so is which tokens are handed out.
-/

/-- What can be asked of a look-ahead. -/
inductive Request
  /-- Whether at least `n` tokens follow. -/
  | hasNext (n : Nat)
  /-- The token `offset` places ahead, without its position. -/
  | peek (offset : Nat)
  /-- The token `offset` places ahead. -/
  | peekLexeme (offset : Nat)
  /-- The next `n` tokens, to be taken. -/
  | take (n : Nat)
  /-- The next token, to be taken. -/
  | takeOne
  /-- The next token, to be taken if there is one. -/
  | next
deriving Repr, DecidableEq

/-- What a request is answered with. -/
inductive Reply
  | verdict (b : Bool)
  | token (t : Token)
  | lexeme (l : Lexeme)
  /-- Tokens that are no longer there afterwards. -/
  | taken (ls : List Lexeme)
deriving Repr, DecidableEq

/-- How many tokens a request needs. -/
def Request.needs : Request → Nat
  | hasNext n => n
  | peek offset | peekLexeme offset => offset + 1
  | take n => n
  | takeOne | next => 1

/-- The answer of a plain list of tokens. -/
def Request.expected (ls : List Lexeme) : Request → Answer Reply
  | hasNext n => .ok (.verdict (n ≤ ls.length))
  | peek offset =>
      match ls[offset]? with
      | some l => .ok (.token l.token)
      | none => .error (.notEnoughTokens (offset + 1) ls.length)
  | peekLexeme offset =>
      match ls[offset]? with
      | some l => .ok (.lexeme l)
      | none => .error (.notEnoughTokens (offset + 1) ls.length)
  | take n =>
      if n ≤ ls.length then .ok (.taken (ls.take n))
      else .error (.notEnoughTokens n ls.length)
  | takeOne =>
      match ls with
      | l :: _ => .ok (.taken [l])
      | [] => .error (.notEnoughTokens 1 0)
  | next => .ok (.taken ls.head?.toList)

/-- Answers a request. -/
def serve (s : Lookahead) : Request → Answer Reply × Lookahead
  | .hasNext n => (s.hasNext n).map (·.map .verdict) id
  | .peek offset => (s.peek offset).map (·.map fun l => .token l.token) id
  | .peekLexeme offset => (s.peek offset).map (·.map .lexeme) id
  | .take n => (s.take n).map (·.map .taken) id
  | .takeOne => s.takeOne.map (·.map fun l => .taken [l]) id
  | .next => s.next?.map (·.map fun l? => .taken l?.toList) id

/-- The tokens that an answer hands out for good. -/
def handedOut : Answer Reply → List Lexeme
  | .ok (.taken ls) => ls
  | _ => []

/-- Answers requests one after another.  Gives the tokens handed out for good by all of them,
and what is left. -/
def serveAll (s : Lookahead) : List Request → List Lexeme × Lookahead
  | [] => ([], s)
  | r :: rs =>
      let (answer, s) := s.serve r
      let (later, s) := s.serveAll rs
      (handedOut answer ++ later, s)

/-- The answers to requests one after another. -/
def answers (s : Lookahead) : List Request → List (Answer Reply)
  | [] => []
  | r :: rs => (s.serve r).1 :: (s.serve r).2.answers rs

/-- A request is answered as the list would answer it, or with the failure in the way; and
what is handed out is no longer there. -/
structure Served (s : Lookahead) (r : Request) (result : Answer Reply × Lookahead) : Prop where
  answer : result.1 =
    match s.obstacle r.needs with
    | some why => .error why
    | none => r.expected s.remaining
  remaining : handedOut result.1 ++ result.2.remaining = s.remaining

section Served

variable {s after : Lookahead} {r : Request}

private theorem Served.failed {why : LexError} (hobstacle : s.obstacle r.needs = some why)
    (hremaining : after.remaining = s.remaining) : Served s r (.error why, after) := by
  refine ⟨?_, hremaining⟩
  rw [hobstacle]

private theorem Served.clear {answer : Answer Reply} (hclear : s.obstacle r.needs = none)
    (hanswer : answer = r.expected s.remaining)
    (hremaining : handedOut answer ++ after.remaining = s.remaining) :
    Served s r (answer, after) := by
  refine ⟨?_, hremaining⟩
  rw [hclear]
  exact hanswer

private theorem hasNext_served (n : Nat) (s : Lookahead) :
    Served s (.hasNext n) (s.serve (.hasNext n)) := by
  have hfill := fill_filled n s
  show Served s _ ((s.fill n).map (·.map .verdict) id)
  generalize s.fill n = filled at hfill ⊢
  cases hfill with
  | failed hobstacle hremaining => exact .failed hobstacle hremaining
  | @enough after hclear hremaining hn =>
      have hlength : n ≤ s.remaining.length := by
        rw [← hremaining, remaining, List.length_append]
        omega
      refine .clear hclear ?_ hremaining
      rw [Request.expected, decide_eq_true hlength]
      rfl
  | short hclear hremaining hheld hn =>
      refine .clear hclear ?_ hremaining
      rw [Request.expected, decide_eq_false (Nat.not_le.mpr hn)]
      rfl

/-- What is looked at is the list's token, and stays. -/
theorem peek_served (offset : Nat) (s : Lookahead) (f : Lexeme → Reply)
    (hf : ∀ l, handedOut (.ok (f l)) = []) (hneeds : r.needs = offset + 1)
    (hexpected : r.expected s.remaining =
      match s.remaining[offset]? with
      | some l => .ok (f l)
      | none => .error (.notEnoughTokens (offset + 1) s.remaining.length)) :
    Served s r ((s.peek offset).map (·.map f) id) := by
  have hfill := fill_filled (offset + 1) s
  unfold peek
  generalize s.fill (offset + 1) = filled at hfill ⊢
  rw [← hneeds] at hfill
  cases hfill with
  | failed hobstacle hremaining => exact .failed hobstacle hremaining
  | @enough after hclear hremaining hn =>
      have hlt : offset < after.held.length := by omega
      have hget : s.remaining[offset]? = some after.held[offset] := by
        rw [← hremaining, remaining, List.getElem?_append_left hlt, List.getElem?_eq_getElem hlt]
      simp only [List.getElem?_eq_getElem hlt]
      refine .clear hclear ?_ ?_
      · rw [hexpected, hget]
        rfl
      · show handedOut (.ok (f _)) ++ after.remaining = _
        rw [hf, hremaining, List.nil_append]
  | @short after hclear hremaining hheld hn =>
      have hget : s.remaining[offset]? = none := List.getElem?_eq_none (by omega)
      simp only [hheld, hget]
      refine .clear hclear ?_ hremaining
      rw [hexpected, hget]
      rfl

/-- What is taken is the head of the list, and the rest of the list is left. -/
theorem take_served (n : Nat) (s : Lookahead) : Served s (.take n) (s.serve (.take n)) := by
  have hfill := fill_filled n s
  show Served s _ ((s.take n).map (·.map .taken) id)
  unfold take
  generalize s.fill n = filled at hfill ⊢
  cases hfill with
  | failed hobstacle hremaining => exact .failed hobstacle hremaining
  | @enough after hclear hremaining hn =>
      refine .clear hclear ?_ ?_
      · have hlength : n ≤ s.remaining.length := by
          rw [← hremaining, remaining, List.length_append]
          omega
        rw [Request.expected, if_pos hlength, ← hremaining, remaining,
          List.take_append_of_le_length hn]
        rfl
      · show after.held.take n ++ (after.held.drop n ++ after.cursor.tokens) = _
        rw [← List.append_assoc, List.take_append_drop]
        exact hremaining
  | @short after hclear hremaining hheld hn =>
      refine .clear hclear ?_ hremaining
      rw [Request.expected, if_neg (Nat.not_le.mpr hn), ← hheld]
      rfl

/-- What taking a token comes to, where there need not be one. -/
theorem next?_cases (s : Lookahead) :
    (∃ why after, s.next? = (.error why, after) ∧ s.obstacle 1 = some why ∧
      after.remaining = s.remaining) ∨
    (∃ l after, s.next? = (.ok (some l), after) ∧ s.obstacle 1 = none ∧
      s.remaining = l :: after.remaining) ∨
    ∃ after, s.next? = (.ok none, after) ∧ s.obstacle 1 = none ∧ s.remaining = [] ∧
      after.remaining = [] := by
  have hfill := fill_filled 1 s
  unfold next?
  generalize s.fill 1 = filled at hfill ⊢
  cases hfill with
  | @failed why after hobstacle hremaining =>
      exact Or.inl ⟨why, after, rfl, hobstacle, hremaining⟩
  | @enough after hclear hremaining hn =>
      obtain ⟨l, ls, hheld⟩ := List.exists_cons_of_length_pos hn
      refine Or.inr (Or.inl ⟨l, { after with held := ls }, ?_, hclear, ?_⟩)
      · simp only [hheld]
      · rw [← hremaining, remaining, hheld]
        rfl
  | @short after hclear hremaining hheld hn =>
      have hnil : s.remaining = [] := List.length_eq_zero_iff.mp (by omega)
      refine Or.inr (Or.inr ⟨after, ?_, hclear, hnil, hremaining.trans hnil⟩)
      simp only [hheld, hnil]

private theorem next?_served (s : Lookahead) : Served s .next (s.serve .next) := by
  show Served s _ (s.next?.map (·.map fun l? => .taken l?.toList) id)
  rcases next?_cases s with
    ⟨why, after, hnext, hobstacle, hafter⟩ | ⟨l, after, hnext, hclear, hlist⟩ |
    ⟨after, hnext, hclear, hnil, hafter⟩
  · rw [hnext]
    exact .failed hobstacle hafter
  · rw [hnext]
    exact .clear hclear (by rw [hlist]; rfl) hlist.symm
  · rw [hnext]
    exact .clear hclear (by rw [hnil]; rfl) (hafter.trans hnil.symm)

private theorem takeOne_served (s : Lookahead) : Served s .takeOne (s.serve .takeOne) := by
  show Served s _ (s.takeOne.map (·.map fun l => .taken [l]) id)
  unfold takeOne
  rcases next?_cases s with
    ⟨why, after, hnext, hobstacle, hafter⟩ | ⟨l, after, hnext, hclear, hlist⟩ |
    ⟨after, hnext, hclear, hnil, hafter⟩
  · rw [hnext]
    exact .failed hobstacle hafter
  · rw [hnext]
    exact .clear hclear (by rw [hlist]; rfl) hlist.symm
  · rw [hnext]
    exact .clear hclear (by rw [hnil]; rfl) (hafter.trans hnil.symm)

/-- **Every request is served as the list serves it.** -/
theorem serve_served (s : Lookahead) (r : Request) : Served s r (s.serve r) := by
  cases r with
  | hasNext n => exact hasNext_served n s
  | peek offset => exact peek_served offset s _ (fun _ => rfl) rfl rfl
  | peekLexeme offset => exact peek_served offset s _ (fun _ => rfl) rfl rfl
  | take n => exact take_served n s
  | takeOne => exact takeOne_served s
  | next => exact next?_served s

end Served

/-- **No requests lose, repeat or reorder a token.** -/
theorem serveAll_remaining (rs : List Request) : ∀ s : Lookahead,
    (s.serveAll rs).1 ++ (s.serveAll rs).2.remaining = s.remaining := by
  induction rs with
  | nil =>
      intro s
      rfl
  | cons r rs ih =>
      intro s
      show handedOut (s.serve r).1 ++ ((s.serve r).2.serveAll rs).1
        ++ ((s.serve r).2.serveAll rs).2.remaining = s.remaining
      rw [List.append_assoc, ih]
      exact (serve_served s r).remaining

/-! ### A failure that persists

A line that cannot be read is behind the cursor once it has failed.  A character that is no token
is not, and so it is met by everyone who asks for more than is held, however often.
-/

/-- The cursor stands at a character or a literal that is no token. -/
def Stuck (s : Lookahead) (why : LexError) : Prop :=
  s.cursor.next = .failed why s.cursor

/-- A request moves the cursor only by filling the queue. -/
theorem serve_cursor (s : Lookahead) (r : Request) :
    (s.serve r).2.cursor = (s.fill r.needs).2.cursor := by
  have hpeek : ∀ offset, (s.peek offset).2.cursor = (s.fill (offset + 1)).2.cursor := by
    intro offset
    unfold peek
    split
    · rename_i hfill
      rw [hfill]
    · rename_i hfill
      rw [hfill]
      split <;> rfl
  have hnext : s.next?.2.cursor = (s.fill 1).2.cursor := by
    unfold next?
    split
    · rename_i hfill
      rw [hfill]
    · rename_i hfill
      rw [hfill]
      split <;> rfl
  cases r with
  | hasNext n => rfl
  | peek offset => exact hpeek offset
  | peekLexeme offset => exact hpeek offset
  | take n =>
      show (s.take n).2.cursor = (s.fill n).2.cursor
      unfold take
      split <;> rename_i hfill <;> rw [hfill]
  | takeOne =>
      show s.takeOne.2.cursor = (s.fill 1).2.cursor
      rw [← hnext]
      unfold takeOne
      split <;> rename_i hnext' <;> rw [hnext']
  | next => exact hnext

private theorem Stuck.serve {s : Lookahead} {why : LexError} (h : s.Stuck why) (r : Request) :
    (s.serve r).2.Stuck why := by
  have hstay : (s.fill r.needs).2.cursor = s.cursor := by
    unfold fill
    cases r.needs - s.held.length with
    | zero => rfl
    | succ missing =>
        unfold scanMore
        rw [h]
  unfold Stuck
  rw [serve_cursor, hstay]
  exact h

private theorem Stuck.serveAll {why : LexError} (rs : List Request) :
    ∀ {s : Lookahead}, s.Stuck why → (s.serveAll rs).2.Stuck why := by
  induction rs with
  | nil =>
      intro s h
      exact h
  | cons r rs ih =>
      intro s h
      exact ih (h.serve r)

/-- Behind a failure that persists there is nothing but what is held. -/
theorem Stuck.answer {s : Lookahead} {why : LexError} (h : s.Stuck why) {r : Request}
    (hneeds : s.held.length < r.needs) : (s.serve r).1 = .error why := by
  have hobstacle : s.obstacle r.needs = some why := by
    unfold obstacle
    rw [Cursor.feed_of_failed h, if_neg]
    simpa using hneeds
  rw [(serve_served s r).answer, hobstacle]

/-- The list never answers with a failure that persists. -/
theorem Request.not_persists_of_expected {r : Request} {ls : List Lexeme} {why : LexError}
    (h : r.expected ls = .error why) : ¬ why.Persists := by
  unfold Request.expected at h
  split at h
  · cases h
  · split at h <;> cases h
    exact id
  · split at h <;> cases h
    exact id
  · split at h <;> cases h
    exact id
  · split at h <;> cases h
    exact id
  · cases h

/-- A request that reports such a failure leaves the look-ahead stuck at it. -/
theorem stuck_of_serve {s : Lookahead} {r : Request} {why : LexError} (hwhy : why.Persists)
    (h : (s.serve r).1 = .error why) : (s.serve r).2.Stuck why := by
  have hanswer := (serve_served s r).answer
  rw [h] at hanswer
  have hfill := fill_filled r.needs s
  have hcursor := serve_cursor s r
  generalize s.fill r.needs = filled at hfill hcursor
  cases hfill with
  | failed hobstacle hremaining hcut hafter =>
      rw [hobstacle] at hanswer
      cases hanswer
      unfold Stuck
      rw [hcursor, hafter]
      exact Cursor.next_after_feed hwhy _ hcut
  | enough hclear | short hclear =>
      rw [hclear] at hanswer
      exact absurd hwhy (Request.not_persists_of_expected hanswer.symm)

/-- The tables fit together, so a source can always be opened. -/
theorem open?_eq (s : Source) : open? s = .ok ⟨[], Cursor.start s⟩ := by
  have htables : validateTables operators keywords = .ok () := rfl
  unfold open?
  rw [htables]

/-- Where no failure is met, all that is held and all that the cursor gives is taken. -/
theorem takeAll_of_clear {s : Lookahead} (hcut : s.cursor.feed.cut = none) :
    s.takeAll.1 = .ok (s.held ++ s.cursor.feed.lexemes) := by
  unfold takeAll
  simp only [hcut]

/-- **Look-ahead never changes the tokens of a source.**  After any requests, what has been
handed out and what remains are the tokens of the source.  Every request is answered as the
list of the remaining tokens answers it, unless a failure is in the way; a failure takes
nothing away; and one that persists answers every later request for more than is held. -/
theorem keeps_tokens (s : Source) :
    ∃ start, open? s = .ok start ∧ ∀ rs : List Request,
      let handed := (start.serveAll rs).1
      let now := (start.serveAll rs).2
      handed ++ now.held ++ now.cursor.tokens = s.tokens ∧
      ∀ r : Request,
        ((now.serve r).1 =
          match now.obstacle r.needs with
          | some why => .error why
          | none => r.expected now.remaining) ∧
        handedOut (now.serve r).1 ++ (now.serve r).2.remaining = now.remaining ∧
        ∀ why, (now.serve r).1 = .error why →
          (now.serve r).2.remaining = now.remaining ∧
          (why.Persists → ∀ (rs' : List Request) (r' : Request),
            let later := ((now.serve r).2.serveAll rs').2
            later.held.length < r'.needs → (later.serve r').1 = .error why) := by
  refine ⟨_, open?_eq s, fun rs => ⟨?_, fun r => ?_⟩⟩
  · rw [List.append_assoc]
    exact serveAll_remaining rs ⟨[], Cursor.start s⟩
  · have hserved := serve_served ((Lookahead.mk [] (Cursor.start s)).serveAll rs).2 r
    refine ⟨hserved.answer, hserved.remaining, fun why hwhy => ⟨?_, ?_⟩⟩
    · have hremaining := hserved.remaining
      rw [hwhy] at hremaining
      exact hremaining
    · intro hpersists rs' r' later hneeds
      exact ((stuck_of_serve hpersists hwhy).serveAll rs').answer hneeds

/-- A name, a line that cannot be read, and a character that is no token.  The failure at the
character stays; the one at the line is met once. -/
theorem keeps_tokens_unreadable :
    let s : Source := ⟨[.text ['x', '\n'], .unreadable .invalidText, .text ['@']]⟩
    ∃ start, open? s = .ok start ∧
      let asked := start.serveAll [.peek 1, .hasNext 2, .take 1]
      asked.1 = [⟨.identifier "x", ⟨1, 1⟩⟩] ∧
      asked.1 ++ asked.2.held ++ asked.2.cursor.tokens = s.tokens ∧
      (asked.2.serve .next).1 = .error (.unexpectedCharacter '@' ⟨2, 1⟩) ∧
      ∀ rs r, let later := ((asked.2.serve .next).2.serveAll rs).2
        later.held.length < r.needs →
          (later.serve r).1 = .error (.unexpectedCharacter '@' ⟨2, 1⟩) := by
  intro s
  obtain ⟨start, hopen, hall⟩ := keeps_tokens s
  obtain rfl : start = ⟨[], Cursor.start s⟩ := by
    rw [open?_eq] at hopen
    exact (Except.ok.inj hopen).symm
  obtain ⟨hkept, hserved⟩ := hall [.peek 1, .hasNext 2, .take 1]
  obtain ⟨-, -, hfailed⟩ := hserved .next
  have hnext : ((serveAll ⟨[], Cursor.start s⟩ [.peek 1, .hasNext 2, .take 1]).2.serve .next).1
      = .error (.unexpectedCharacter '@' ⟨2, 1⟩) := rfl
  exact ⟨_, hopen, rfl, hkept, hnext, (hfailed _ hnext).2 trivial⟩

end Lookahead

end LoopFree
