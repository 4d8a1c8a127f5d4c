/-
What a token listing shows.

A listing, requests for the next token and taking all tokens see the same tokens of a source and
the same failure behind them, and so does the parser where it comes upon a failure.  The listing
takes the tokens as they are ahead of its look-ahead, a line for each (`Ahead.writeTokens`); what is
ahead of the others is the same.
-/
import LoopFree.Listing
import LoopFree.Proofs.Run.Steps
import LoopFree.Proofs.Syntax.OnDemandStmt

namespace LoopFree

/-- Where no line is written nothing is. -/
theorem Sink.append_nothing (s : Sink) :
    { s with written := s.written ++ (String.join []).toUTF8 } = s := by
  rw [String.join_nil, String.toUTF8_eq_toByteArray, String.toByteArray_empty,
    ByteArray.append_empty]

namespace Lookahead

variable {s : Lookahead} {ts : List Lexeme} {cut : Option LexError}

/-- Requests for the next token give the tokens ahead, and then the failure or the end. -/
theorem Ahead.answers_next (h : s.Ahead ts cut) :
    s.answers (List.replicate (ts.length + 1) .next)
      = ts.map (fun l => .ok (.taken [l])) ++ [cut.elim (.ok (.taken [])) .error] := by
  induction ts generalizing s with
  | nil =>
      have hnext := h.next?
      show [(s.next?.map (·.map fun l? => Reply.taken l?.toList) id).1] = _
      generalize s.next? = r at hnext ⊢
      cases hnext with
      | ended hahead hcut =>
          subst hcut
          rfl
      | failed hcut =>
          subst hcut
          rfl
  | cons l ts ih =>
      have hnext := h.next?
      rw [List.length_cons, List.replicate_succ, answers]
      show (s.next?.map (·.map fun l? => Reply.taken l?.toList) id).1
        :: (s.next?.map (·.map fun l? => Reply.taken l?.toList) id).2.answers _ = _
      generalize s.next? = r at hnext ⊢
      cases hnext with
      | token hahead => exact congrArg (_ :: ·) (ih hahead)

/-- Taking all tokens takes those ahead, unless a failure is behind them. -/
theorem Ahead.takeAll (h : s.Ahead ts cut) : s.takeAll.1 = cut.elim (.ok ts) .error := by
  obtain ⟨rfl, rfl⟩ := h
  unfold Lookahead.takeAll
  cases hcut : s.cursor.feed.cut <;> simp only [hcut] <;> rfl

/-- **The lines of the tokens ahead are written**, and the failure is the one behind them. -/
theorem Ahead.writeTokens (h : s.Ahead ts cut) {out : Sink} (hout : out.TakesAll) {rounds : Nat}
    (hrounds : ts.length < rounds) :
    s.writeTokens rounds out
      = ({ out with written := out.written ++ (String.join (ts.map Lexeme.listingLine)).toUTF8 },
          cut.map .lexical) := by
  induction rounds generalizing s ts out with
  | zero => exact absurd hrounds (Nat.not_lt_zero _)
  | succ rounds ih =>
      have hnext := h.next?
      unfold Lookahead.writeTokens
      generalize s.next? = r at hnext ⊢
      cases hnext with
      | ended hahead hcut =>
          subst hcut
          show (out, out.flush.map ListingFailure.output) = _
          rw [hout.flush, List.map_nil, out.append_nothing]
          rfl
      | failed hcut =>
          subst hcut
          rw [List.map_nil, out.append_nothing]
          rfl
      | @token s l rest hahead =>
          simp only [hout.write]
          have hrest := ih hahead (hout.withWritten (out.written ++ l.listingLine.toUTF8))
            (Nat.lt_of_succ_lt_succ hrounds)
          refine hrest.trans ?_
          rw [List.map_cons, String.join_cons, String.toUTF8_eq_toByteArray,
            String.toUTF8_eq_toByteArray, String.toUTF8_eq_toByteArray, String.toByteArray_append,
            ByteArray.append_assoc]

end Lookahead

/-- **What is written is the listing of the source.** -/
theorem Source.writeTokens_eq (s : Source) {out : Sink} (hout : out.TakesAll) :
    s.writeTokens out = ({ out with written := out.written ++ s.listing.text.toUTF8 },
      s.listing.cut.map .lexical) := by
  have hahead := Lookahead.ahead_start s
  unfold Source.writeTokens
  rw [Lookahead.open?_eq]
  exact hahead.writeTokens hout (Nat.lt_succ_of_le hahead.length_le)

/-- **The listing, the requests for tokens and the parser agree.**  On a sink that takes everything
the lines of the tokens are written that requests for the next token give, and the listing fails as
those requests do in the end.  It does not fail exactly if all tokens can be taken, and then shows
those.  It does not fail on a program, and where the parser meets a failure of the tokens it is the
same one. -/
theorem Source.writeTokens_agrees (s : Source) {out : Sink} (hout : out.TakesAll) :
    ∃ start, Lookahead.open? s = .ok start ∧
      let ls := s.feed.lexemes
      let cut := s.feed.cut
      start.answers (List.replicate (ls.length + 1) .next)
        = ls.map (fun l => .ok (.taken [l])) ++ [cut.elim (.ok (.taken [])) .error] ∧
      s.writeTokens out
        = ({ out with written := out.written ++ (String.join (ls.map Lexeme.listingLine)).toUTF8 },
            cut.map .lexical) ∧
      start.takeAll.1 = cut.elim (.ok ls) .error ∧
      ∀ a : Access,
        (∀ p, a.parse s = .ok p → (s.writeTokens out).2 = none) ∧
        ∀ why, a.parse s = .error (.lexical why) →
          (s.writeTokens out).2 = some (.lexical why) := by
  have hahead := Lookahead.ahead_start s
  have hwritten := s.writeTokens_eq hout
  refine ⟨_, Lookahead.open?_eq s, hahead.answers_next, hwritten, hahead.takeAll,
    fun a => ⟨fun p h => ?_, fun why h => ?_⟩⟩
  · rw [(a.parse_eq s).1] at h
    rw [hwritten, listing, (Parser.program_reads h).1]
    rfl
  · rw [(a.parse_eq s).1] at h
    have hcut : s.feed.cut = some why := (a.parse_eq s).2 _ h
    rw [hwritten, listing, hcut]
    rfl

/-- The tokens in front of a character that is none are listed. -/
theorem Source.writeTokens_agrees_unexpected :
    let s := Source.ofText "a := 2; @".toList
    Sink.unlimited.TakesAll ∧
      s.writeTokens .unlimited
        = ({ Sink.unlimited with
              written := .empty ++ "Identifier\nAssign\nInteger\nSemicolon\n".toUTF8 },
            some (.lexical (.unexpectedCharacter '@' ⟨1, 9⟩))) := by
  intro s
  have hout : Sink.unlimited.TakesAll := ⟨rfl, rfl⟩
  obtain ⟨start, -, -, hwritten, -⟩ := s.writeTokens_agrees hout
  have htext : String.join (s.feed.lexemes.map Lexeme.listingLine)
      = "Identifier\nAssign\nInteger\nSemicolon\n" := by decide +kernel
  have hcut : s.feed.cut = some (.unexpectedCharacter '@' ⟨1, 9⟩) := by decide +kernel
  rw [htext, hcut] at hwritten
  exact ⟨hout, hwritten⟩

end LoopFree
