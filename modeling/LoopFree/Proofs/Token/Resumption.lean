/-
What reading on comes to.

Whoever asks for the next token once more, after a line that could not be read, gets the tokens
behind that line.  What all the answers come to is told line by line (`transcript`): a line that
can be read gives its tokens, as if it stood alone, and one that cannot gives a failure.  The end
is that of the lines, or the first character or literal that is no token.

`Cursor.Tells` says the same with the steps of a cursor, which knows of lines only when it has to.
A cursor tells the transcript of its lines (`tells_transcript`); told that way it agrees with the
tokens of the source from which the unreadable lines are left out (`Tells.readable`), and with the
answers of a look-ahead (`answers_of_tells`).
-/
import LoopFree.Proofs.Token.Lines
import LoopFree.Proofs.Token.Lookahead

namespace LoopFree

/-! ### Transcripts

The tokens of a source end at its first failure, whichever it is.  But a line that could not be
read is behind whoever asks again, and so there is more to tell: tokens and failures in their
order, up to what nobody gets past.  A transcript tells it of the lines, without a cursor.
-/

/-- What a request for the next token comes to, short of the end. -/
inductive Event
  | token (l : Lexeme)
  /-- A line could not be read, and is gone. -/
  | unreadable (why : ReadFailure)
deriving Repr, DecidableEq

namespace Event

/-- The token, if the event is one. -/
def lexeme? : Event → Option Lexeme
  | token l => some l
  | unreadable _ => none

def isFailure : Event → Bool
  | token _ => false
  | unreadable _ => true

end Event

/-- What requests for the next token come to, one after another, and the failure that they all
come to in the end, if it is not the end of the source. -/
structure Transcript where
  events : List Event
  cut : Option LexError
deriving Repr, DecidableEq

namespace Transcript

/-- Goes on after what has been told, unless that ended in a failure. -/
def andThen (t next : Transcript) : Transcript :=
  match t.cut with
  | none => ⟨t.events ++ next.events, next.cut⟩
  | some _ => t

private theorem cons_andThen (e : Event) (events : List Event) (cut : Option LexError)
    (next : Transcript) :
    andThen ⟨e :: events, cut⟩ next
      = ⟨e :: (andThen ⟨events, cut⟩ next).events, (andThen ⟨events, cut⟩ next).cut⟩ := by
  cases cut <;> rfl

private theorem andThen_assoc (t next last : Transcript) :
    (t.andThen next).andThen last = t.andThen (next.andThen last) := by
  obtain ⟨events, cut⟩ := t
  obtain ⟨events', cut'⟩ := next
  cases cut with
  | some why => rfl
  | none =>
      cases cut' with
      | some why => rfl
      | none =>
          show Transcript.mk (events ++ events' ++ last.events) last.cut
            = ⟨events ++ (events' ++ last.events), last.cut⟩
          rw [List.append_assoc]

/-- The tokens told. -/
def lexemes (t : Transcript) : List Lexeme :=
  t.events.filterMap Event.lexeme?

/-- How many lines could not be read. -/
def failures (t : Transcript) : Nat :=
  t.events.countP Event.isFailure

/-- The end is told where it is told twice. -/
theorem andThen_cut {t next : Transcript} (h : (t.andThen next).cut = none) :
    t.cut = none ∧ next.cut = none ∧
      (t.andThen next).failures = t.failures + next.failures := by
  obtain ⟨events, cut⟩ := t
  cases cut with
  | some why => cases h
  | none => exact ⟨rfl, h, List.countP_append⟩

end Transcript

/-- What lines come to one after another, behind so many that could be read.  A line that can be
read gives its tokens, one that cannot a failure, and it does not count. -/
def transcript : Nat → List Line → Transcript
  | _, [] => ⟨[], none⟩
  | number, .unreadable why :: lines =>
      Transcript.andThen ⟨[.unreadable why], none⟩ (transcript number lines)
  | number, .text chars :: lines =>
      let line := (Cursor.enterLine chars number []).feed
      Transcript.andThen ⟨line.lexemes.map .token, line.cut⟩ (transcript (number + 1) lines)

private theorem transcript_append (later : List Line) {lines : List Line} : ∀ number : Nat,
    transcript number (lines ++ later)
      = (transcript number lines).andThen
          (transcript (number + lines.countP Line.isText) later) := by
  induction lines with
  | nil =>
      intro number
      rfl
  | cons line lines ih =>
      intro number
      cases line with
      | unreadable why =>
          have hcount : (Line.unreadable why :: lines).countP Line.isText
              = lines.countP Line.isText := rfl
          rw [List.cons_append, transcript, transcript, ih, Transcript.andThen_assoc, hcount]
      | text chars =>
          have hcount : (Line.text chars :: lines).countP Line.isText
              = lines.countP Line.isText + 1 := List.countP_cons_of_pos rfl
          rw [List.cons_append, transcript, transcript, ih, Transcript.andThen_assoc, hcount,
            Nat.add_right_comm, ← Nat.add_assoc]

/-- Where the end is reached, every line that cannot be read has failed, once. -/
theorem failures_transcript {lines : List Line} : ∀ number : Nat,
    (transcript number lines).cut = none →
    (transcript number lines).failures = lines.countP fun line => !line.isText := by
  induction lines with
  | nil =>
      intro number _
      rfl
  | cons line lines ih =>
      intro number hcut
      cases line with
      | unreadable why =>
          obtain ⟨-, hrest, hfailures⟩ := Transcript.andThen_cut hcut
          rw [transcript, hfailures, ih number hrest, Nat.add_comm]
          exact (List.countP_cons_of_pos rfl).symm
      | text chars =>
          obtain ⟨-, hrest, hfailures⟩ := Transcript.andThen_cut hcut
          have hnone : ∀ ls : List Lexeme, (ls.map Event.token).countP Event.isFailure = 0 :=
            fun ls => by simp [Event.isFailure]
          rw [transcript, hfailures, ih (number + 1) hrest, Transcript.failures, hnone,
            Nat.zero_add]
          exact (List.countP_cons_of_neg Bool.false_ne_true).symm

namespace Cursor

/-- What the steps from a cursor on come to, where they go on past lines that cannot be read. -/
inductive Tells : Cursor → Transcript → Prop
  | done {c after : Cursor} (h : c.next = .done after) : Tells c ⟨[], none⟩
  | stopped {c after : Cursor} {why : LexError} (h : c.next = .failed why after)
      (hwhy : why.Persists) : Tells c ⟨[], some why⟩
  | token {c after : Cursor} {l : Lexeme} {t : Transcript} (h : c.next = .lexeme l after)
      (rest : Tells after t) : Tells c ⟨.token l :: t.events, t.cut⟩
  | unreadable {c after : Cursor} {why : ReadFailure} {t : Transcript}
      (h : c.next = .failed (.unreadable why) after) (rest : Tells after t) :
      Tells c ⟨.unreadable why :: t.events, t.cut⟩

private theorem Tells.congr {c c' : Cursor} {t : Transcript} (h : c.next = c'.next)
    (ht : c'.Tells t) : c.Tells t := by
  cases ht with
  | done hnext => exact .done (h.trans hnext)
  | stopped hnext hwhy => exact .stopped (h.trans hnext) hwhy
  | token hnext rest => exact .token (h.trans hnext) rest
  | unreadable hnext rest => exact .unreadable (h.trans hnext) rest

/-! ### Line by line

Within a line the cursor has nothing to do with those behind it.  So what it comes to there is
what it would come to if the line stood alone, and with that the lines can be taken off one at a
time.
-/

/-- A step in a line behind which there is no other. -/
private def Step.StaysIn (line : Nat) : Step → Prop
  | .lexeme _ after => after.unread = [] ∧ after.position.line = line
  | .done after => after.position.line = line
  | .failed why _ => why.Persists

private theorem next_staysIn {c : Cursor} (h : c.unread = []) : c.next.StaysIn c.position.line := by
  unfold next
  by_cases hrest : c.skipBlanks.rest.isEmpty = true
  · have hunread : c.skipBlanks.unread = [] := h
    simp only [if_pos hrest, hunread]
    exact rfl
  · simp only [if_neg hrest]
    unfold scanHere
    cases hscan : scan c.skipBlanks.rest with
    | token => exact ⟨h, rfl⟩
    | unexpected | malformed => exact trivial
    | nothing =>
        obtain ⟨ch, cs, hcs⟩ := List.exists_cons_of_ne_nil (mt List.isEmpty_iff.mpr hrest)
        rw [hcs] at hscan
        exact absurd hscan (scan_cons_ne_nothing ch cs)

/-- A line with others behind it is told as the line alone, and then the others. -/
theorem tells_line {c : Cursor} {more : List Line} {t : Transcript} (h : c.unread = [])
    (hmore : ∀ q : Position, q.line = c.position.line → (Cursor.mk [] q more).Tells t) :
    (c.extend more).Tells (Transcript.andThen ⟨c.feed.lexemes.map .token, c.feed.cut⟩ t) := by
  induction c using next_induction with
  | done c after hnext =>
      have hstays := next_staysIn h
      rw [hnext] at hstays
      have hgo : (c.extend more).next = (Cursor.mk [] after.position more).next :=
        next_extend_of hnext more
      rw [feed_of_done hnext]
      exact (hmore after.position hstays).congr hgo
  | failed c why after hnext =>
      have hwhy := next_staysIn h
      rw [hnext] at hwhy
      rw [feed_of_failed hnext]
      exact .stopped (next_extend_of hnext more) hwhy
  | lexeme c l after hnext ih =>
      have hstays := next_staysIn h
      rw [hnext] at hstays
      rw [feed_of_lexeme hnext, List.map_cons, Transcript.cons_andThen]
      exact .token (next_extend_of hnext more)
        (ih hstays.1 fun q hq => hmore q (hq.trans hstays.2))

private theorem tells_transcript {lines : List Line} : ∀ p : Position,
    (Cursor.mk [] p lines).Tells (transcript p.line lines) := by
  induction lines with
  | nil =>
      intro p
      exact .done rfl
  | cons line lines ih =>
      intro p
      cases line with
      | unreadable why => exact .unreadable rfl (ih p)
      | text chars =>
          have henter : (Cursor.mk [] p (.text chars :: lines)).next
              = ((enterLine chars p.line []).extend lines).next := rfl
          refine Tells.congr henter (tells_line rfl fun q hq => ?_)
          have hq' : q.line = p.line + 1 := hq
          rw [← hq']
          exact ih q

/-! ### What is told

If the lines that cannot be read are left out of the source, all that goes missing are their
failures.  The tokens are the same, and so is the end.
-/

section Tells

variable {c : Cursor} {t : Transcript}

/-- The tokens told are those of the source without the unreadable lines, and so is its end. -/
theorem Tells.readable (h : c.Tells t) :
    c.readable.feed.lexemes = t.events.filterMap Event.lexeme? ∧ c.readable.feed.cut = t.cut := by
  induction h with
  | done hnext =>
      rw [feed_of_done (next_readable_of hnext)]
      exact ⟨rfl, rfl⟩
  | @stopped c after why hnext hwhy =>
      have hgo : c.readable.next = .failed why after.readable := by
        rw [next_readable_of hnext]
        cases why <;> first | rfl | exact hwhy.elim
      rw [feed_of_failed hgo]
      exact ⟨rfl, rfl⟩
  | token hnext rest ih =>
      rw [feed_of_lexeme (next_readable_of hnext)]
      exact ⟨congrArg _ ih.1, ih.2⟩
  | @unreadable c after why t hnext rest ih =>
      have hgo : c.readable.next = after.readable.next := next_readable_of hnext
      rw [feed_congr hgo]
      exact ih

/-- What ends the telling short of the end is met again whenever it is asked for more. -/
theorem Tells.cut_persists (h : c.Tells t) : ∀ why, t.cut = some why → why.Persists := by
  induction h with
  | done hnext => exact nofun
  | stopped hnext hwhy =>
      intro why hcut
      cases hcut
      exact hwhy
  | token hnext rest ih => exact ih
  | unreadable hnext rest ih => exact ih

end Tells

end Cursor

/-! ### Answers

Every request for the next token is a step of the cursor, as nothing is ever held.  When the steps
have come to their end the requests need not have, and from then on all are answered alike.
-/

/-- The answer to the request for the next token that comes to it. -/
def Event.answer : Event → Lookahead.Answer Lookahead.Reply
  | token l => .ok (.taken [l])
  | unreadable why => .error (.unreadable why)

/-- The answer to all requests for the next token after that. -/
def Transcript.lastAnswer (t : Transcript) : Lookahead.Answer Lookahead.Reply :=
  match t.cut with
  | none => .ok (.taken [])
  | some why => .error why

namespace Lookahead

section Next

variable {c after : Cursor}

private theorem serve_next_of_done (h : c.next = .done after) :
    (Lookahead.mk [] c).serve .next = (.ok (.taken []), ⟨[], after⟩) := by
  simp [serve, next?, fill, scanMore, h, Except.map]

private theorem serve_next_of_failed {why : LexError} (h : c.next = .failed why after) :
    (Lookahead.mk [] c).serve .next = (.error why, ⟨[], after⟩) := by
  simp [serve, next?, fill, scanMore, h, Except.map]

private theorem serve_next_of_lexeme {l : Lexeme} (h : c.next = .lexeme l after) :
    (Lookahead.mk [] c).serve .next = (.ok (.taken [l]), ⟨[], after⟩) := by
  simp [serve, next?, fill, scanMore, h, Except.map]

end Next

/-- What leaves the look-ahead as it is is answered in the same way again. -/
theorem answers_again {r : Request} {answer : Answer Reply} {after : Lookahead}
    (hstay : after.serve r = (answer, after)) (k : Nat) : ∀ {s : Lookahead},
    s.serve r = (answer, after) → s.answers (List.replicate k r) = List.replicate k answer := by
  induction k with
  | zero =>
      intro s _
      rfl
  | succ k ih =>
      intro s h
      rw [List.replicate_succ, answers, h, ih hstay]
      rfl

/-- **Requests for the next token are answered as the steps of the cursor tell.** -/
theorem answers_of_tells {c : Cursor} {t : Transcript} (h : c.Tells t) (k : Nat) :
    (Lookahead.mk [] c).answers (List.replicate (t.events.length + k) .next)
      = t.events.map Event.answer ++ List.replicate k t.lastAnswer := by
  induction h with
  | done hnext =>
      rw [List.length_nil, Nat.zero_add]
      exact answers_again (serve_next_of_done (Cursor.next_of_done hnext)) k
        (serve_next_of_done hnext)
  | stopped hnext hwhy =>
      rw [List.length_nil, Nat.zero_add]
      exact answers_again (serve_next_of_failed (Cursor.next_of_failed hnext hwhy)) k
        (serve_next_of_failed hnext)
  | token hnext rest ih =>
      rw [List.length_cons, Nat.add_right_comm, List.replicate_succ, answers,
        serve_next_of_lexeme hnext, ih]
      rfl
  | unreadable hnext rest ih =>
      rw [List.length_cons, Nat.add_right_comm, List.replicate_succ, answers,
        serve_next_of_failed hnext, ih]
      rfl

end Lookahead

/-! ### Byte strings

Which lines can be read is a matter of bytes, and it is the bytes that somebody could correct.  So
in the end all this is said of a file without its bad lines.
-/

namespace Source

/-- The bytes without the lines that are not valid UTF-8, each with the line feed that ends it. -/
def deleteInvalid (bytes : List UInt8) : List UInt8 :=
  ((splitLines (· == 10) bytes).filter fun line => ByteArray.validateUTF8 ⟨line.toArray⟩).flatten

/-- A line can be read where it is valid UTF-8. -/
theorem isText_decodeLine (line : List UInt8) :
    (decodeLine line).isText = ByteArray.validateUTF8 ⟨line.toArray⟩ := by
  unfold decodeLine String.fromUTF8?
  by_cases hvalid : ByteArray.IsValidUTF8 ⟨line.toArray⟩
  · rw [dif_pos hvalid, ByteArray.validateUTF8_eq_true_iff.mpr hvalid]
    rfl
  · rw [dif_neg hvalid]
    exact (Bool.eq_false_iff.mpr (mt ByteArray.validateUTF8_eq_true_iff.mp hvalid)).symm

/-- What is left is cut into the lines that were kept. -/
theorem ofBytes_deleteInvalid (bytes : List UInt8) :
    ofBytes (deleteInvalid bytes) = (ofBytes bytes).readable := by
  obtain ⟨hlines, hended⟩ := @lines_of_splitLines UInt8 (· == 10) bytes
  have hsplit : splitLines (· == 10) (deleteInvalid bytes)
      = (splitLines (· == 10) bytes).filter fun line => ByteArray.validateUTF8 ⟨line.toArray⟩ :=
    splitLines_flatten (fun line hline => hlines line (List.mem_filter.mp hline).1)
      (hended.filter _)
  have hkept : Line.isText ∘ decodeLine = fun line => ByteArray.validateUTF8 ⟨line.toArray⟩ :=
    funext isText_decodeLine
  rw [ofBytes, hsplit, ofBytes, readable, List.filter_map, hkept]

end Source

/-- **Lines that are not valid UTF-8 are passed over.**  Requests for the next token, one after
another, give the tokens of the bytes without those lines, and come to the same end or the same
failure.  Each of those lines before that fails once: behind the tokens of the lines before it, and
before any token of the lines behind it. -/
theorem Lookahead.answers_past_unreadable (bytes : List UInt8) :
    ∃ start, open? (.ofBytes bytes) = .ok start ∧
      let lines := (Source.ofBytes bytes).lines
      let kept := (Source.ofBytes (Source.deleteInvalid bytes)).feed
      let told := transcript 0 lines
      (∀ k, start.answers (List.replicate (told.events.length + k) .next)
        = told.events.map Event.answer ++ List.replicate k told.lastAnswer) ∧
      told.lexemes = kept.lexemes ∧ told.cut = kept.cut ∧
      (∀ why, told.cut = some why → why.Persists) ∧
      ∀ before why behind, lines = before ++ .unreadable why :: behind →
        let ahead := transcript 0 before
        ahead.lexemes = (Source.mk before).tokens ∧
        (∀ stop, ahead.cut = some stop → told = ahead) ∧
        (ahead.cut = none →
          ahead.failures = (before.countP fun line => !line.isText) ∧
          told.events = ahead.events ++ .unreadable why ::
            (transcript (before.countP Line.isText) behind).events) := by
  refine ⟨_, open?_eq _, ?_⟩
  intro lines kept told
  have htells : (Cursor.start (.ofBytes bytes)).Tells told := Cursor.tells_transcript ⟨0, 1⟩
  obtain ⟨hlexemes, hcut⟩ := htells.readable
  have hkept : kept = (Cursor.start (.ofBytes bytes)).readable.feed := by
    show (Source.ofBytes (Source.deleteInvalid bytes)).feed = _
    rw [Source.ofBytes_deleteInvalid]
    rfl
  rw [hkept]
  refine ⟨answers_of_tells htells, hlexemes.symm, hcut.symm, htells.cut_persists, ?_⟩
  intro before why behind hlines ahead
  have htold : told = ahead.andThen (transcript (0 + before.countP Line.isText)
      (.unreadable why :: behind)) := by
    show transcript 0 lines = _
    rw [hlines, transcript_append]
  have hahead : (Cursor.start ⟨before⟩).Tells ahead := Cursor.tells_transcript ⟨0, 1⟩
  refine ⟨hahead.readable.1.symm, fun stop hstop => ?_, fun hend => ⟨?_, ?_⟩⟩
  · rw [htold, Transcript.andThen, hstop]
  · exact failures_transcript 0 hend
  · rw [htold, Transcript.andThen, hend, Nat.zero_add]
    rfl

/-- The line that is not valid UTF-8 fails behind `x` and is not counted where `@` stands. -/
theorem Lookahead.answers_past_unreadable_secondLine :
    let bytes : List UInt8 := [120, 10, 255, 10, 64]
    let stop : LexError := .unexpectedCharacter '@' ⟨2, 1⟩
    ∃ start, open? (.ofBytes bytes) = .ok start ∧
      start.answers (List.replicate 4 .next)
        = [.ok (.taken [⟨.identifier "x", ⟨1, 1⟩⟩]), .error (.unreadable .invalidText),
          .error stop, .error stop] ∧
      stop.Persists ∧ (transcript 0 [.text ['x', '\n']]).failures = 0 := by
  intro bytes stop
  have hlines : (Source.ofBytes bytes).lines
      = [.text ['x', '\n']] ++ .unreadable .invalidText :: [.text ['@']] := by
    decide +kernel
  have htold : transcript 0 (Source.ofBytes bytes).lines
      = ⟨[.token ⟨.identifier "x", ⟨1, 1⟩⟩, .unreadable .invalidText], some stop⟩ := by
    decide +kernel
  obtain ⟨start, hopen, hanswers, -, -, hpersists, hfailures⟩ := answers_past_unreadable bytes
  have hend : (transcript 0 [.text ['x', '\n']]).cut = none := by decide +kernel
  have hagain := hanswers 2
  rw [htold] at hagain
  exact ⟨start, hopen, hagain, hpersists stop (by rw [htold]),
    ((hfailures _ _ _ hlines).2.2 hend).1⟩

end LoopFree
