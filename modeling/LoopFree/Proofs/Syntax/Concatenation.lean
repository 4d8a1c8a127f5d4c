/-
Programs behind one another.

A program can be put in front of any source, with nothing between.  Its last token is a
semicolon or a closing brace, which ends whatever follows; so no token runs over the join, which
may be in the middle of a line.  The places in the second source are moved by what stands before
it, and nothing else about its tokens changes (`Source.feed_append`).  The parser takes the
statements of the first source whatever follows them, and goes on with the second as if it
started there, for at the top level nothing is open (`Parser.program_append`).  So the second
source decides: the statements are joined, or its error is reported, at the place where it
stands now.
-/
import Mathlib.Data.List.Induction
import LoopFree.Proofs.Syntax.Acceptance
import LoopFree.Proofs.Syntax.Positions
import LoopFree.Proofs.Syntax.PromptStmt
import LoopFree.Proofs.Token.Cutting

namespace LoopFree

open Grammar

/-! ### Places behind a text

Between the two sources there is nothing, not even the end of a line.  So the second one starts
where the first one ends, and on its first line it is the columns that move.
-/

/-- The place in a text when other text is put before it: further down by the line feeds before,
and on the first line further right by what stands before on that line. -/
def Position.behind (before : List Char) (p : Position) : Position where
  line := p.line + before.count '\n'
  column :=
    if p.line = 1 then p.column + (before.reverse.takeWhile (· != '\n')).length else p.column

private theorem Position.behind_advance (first : List Char) (p : Position) (n : Nat) :
    (p.advance n).behind first = (p.behind first).advance n := by
  by_cases hline : p.line = 1
  · simp [behind, advance, hline, Nat.add_right_comm]
  · simp [behind, advance, hline]

/-- Where a place is in a text says where it is behind another. -/
theorem Position.after_behind (first before : List Char) :
    after (first ++ before) = (after before).behind first := by
  -- A place is counted on from the place one character before it.
  induction before using List.reverseRecOn with
  | nil =>
      rw [List.append_nil]
      rfl
  | append_singleton before c ih =>
      rw [← List.append_assoc]
      by_cases hc : c = '\n'
      · rw [hc, after_newline, after_newline, ih]
        have hline : (after before).line + 1 ≠ 1 := by
          simp only [after]
          omega
        simp only [behind, if_neg hline, Position.mk.injEq, and_true]
        omega
      · rw [after_concat _ hc, after_concat _ hc, ih, behind_advance]

private theorem Scan.failure?_moved (f : Position → Position) (s : Scan) (p : Position) :
    s.failure? (f p) = (s.failure? p).map (LexError.moved f) := by
  cases s <;> rfl

namespace Cuts

/-- Other text before a text moves the places of its tokens and of its failure. -/
theorem behind {before text : List Char} {ls : List Lexeme} {cut : Option LexError}
    (h : Cuts before text ls cut) (first : List Char) :
    Cuts (first ++ before) text (ls.map (Lexeme.moved (.behind first)))
      (cut.map (LexError.moved (.behind first))) := by
  induction h with
  | ended => exact .ended
  | blank hb h ih =>
      rw [← List.append_assoc] at ih
      exact .blank hb ih
  | @lexeme t before text left ls cut hscan h ih =>
      rw [← List.append_assoc] at ih
      rw [List.map_cons, Lexeme.moved, ← Position.after_behind]
      exact .lexeme hscan ih
  | @fails b before rest why hb hscan =>
      refine .fails hb ?_
      rw [Position.after_behind, Scan.failure?_moved, hscan]
      rfl

end Cuts

/-! ### The last token of a program

Nothing must grow together where the two texts meet.  A program ends with a semicolon or a closing
brace, and behind these any character starts afresh.
-/

namespace Grammar

/-- A statement ends with a token that may stand in front of anything. -/
theorem exists_last_of_derivesStmt {d : Nat} {ts : List Token} {s : Stmt}
    (h : DerivesStmt d ts s) : ∃ us t, ts = us ++ [t] ∧ ∀ c, t.EndsBefore c := by
  cases h with
  | empty => exact ⟨[], .semicolon, rfl, fun _ => trivial⟩
  | @assign _ ts e x h => exact ⟨.identifier x :: .assign :: ts, .semicolon, rfl, fun _ => trivial⟩
  | @print _ ts e h => exact ⟨.printWord :: ts, .semicolon, rfl, fun _ => trivial⟩
  | @ifThen d d' ts ts' c body hc hbody =>
      obtain ⟨us, t, rfl, ht⟩ := exists_last_of_derivesStmt hbody
      exact ⟨.ifWord :: .leftParen :: (ts ++ .rightParen :: us), t, by simp, ht⟩
  | @block d ts body h => exact ⟨.leftBrace :: ts, .rightBrace, rfl, fun _ => trivial⟩

private theorem last_of_derivesStmts {d : Nat} {ts : List Token} {ss : List Stmt}
    (h : DerivesStmts d ts ss) : ∀ t ∈ ts.getLast?, ∀ c, t.EndsBefore c := by
  cases h with
  | nil => nofun
  | cons h hrest =>
      obtain ⟨us, t, rfl, ht⟩ := exists_last_of_derivesStmt h
      intro u hu
      rw [List.getLast?_append, List.getLast?_concat, Option.mem_def, Option.or_eq_some_iff] at hu
      rcases hu with hu | ⟨-, hu⟩
      · exact last_of_derivesStmts hrest u hu
      · rw [← Option.some.inj hu]
        exact ht

end Grammar

namespace Parser

variable {cut : Option LexError}

/-- **Behind the statements of a derivation others are read as if they started there.** -/
theorem statements_append {d : Nat} {ts : List Token} {ss : List Stmt} {room : Nat}
    {ls : List Lexeme} (h : DerivesStmts d ts ss) (hfits : Fits room d ts ls)
    (rest : List Lexeme) :
    statements (statement cut room) (ls ++ rest)
      = (fun r => (ss ++ r.1, r.2)) <$> statements (statement cut room) rest := by
  cases h with
  | nil =>
      obtain rfl : ls = [] := List.map_eq_nil_iff.mp hfits.tokens
      rw [List.nil_append]
      cases statements (statement cut room) rest <;> rfl
  | cons h hmore =>
      obtain ⟨us, vs, rfl, hus, hvs⟩ := hfits.append
      have hfirst : TakesStmt (statement cut room) us _ :=
        takes_of_derivesStmt h (hus.mono (Nat.le_max_left _ _))
      rw [List.append_assoc,
        statements_of_found (statement_nil room) (statement_reads room) (hfirst (vs ++ rest)),
        statements_append hmore (hvs.mono (Nat.le_max_right _ _))]
      cases statements (statement cut room) rest <;> rfl

/-- **Behind a program the parser goes on as if it started there.** -/
theorem program_append {ls : List Lexeme} {p : Program} (h : StmtsWithin maxNesting ls p)
    (rest : List Lexeme) : program cut (ls ++ rest) = (p ++ ·) <$> program cut rest := by
  obtain ⟨d, hd, hder, hrange⟩ := h
  simp only [program, bind, Except.bind, statements_append hder ⟨hd, rfl, hrange⟩]
  cases statements (statement cut maxNesting) rest with
  | error why => rfl
  | ok r =>
      obtain ⟨body, left⟩ := r
      cases left with
      | nil => cases cut <;> rfl
      | cons l left => rfl

end Parser

namespace Source

/-- Behind a source that is a program the tokens of another are the same, further on. -/
theorem feed_append {s₁ : String} {p : Program} (h : (ofString s₁).parse = .ok p) (s₂ : String) :
    (ofString (s₁ ++ s₂)).feed.lexemes = (ofString s₁).feed.lexemes ++
        (ofString s₂).feed.lexemes.map (Lexeme.moved (.behind s₁.toList)) ∧
      (ofString (s₁ ++ s₂)).feed.cut
        = (ofString s₂).feed.cut.map (LexError.moved (.behind s₁.toList)) := by
  obtain ⟨hcut, d, -, hder, -⟩ := Parser.program_reads h
  have hfirst := cuts s₁
  rw [hcut] at hfirst
  have hsecond := (cuts s₂).behind s₁.toList
  rw [List.append_nil] at hsecond
  refine (cuts_iff _ _ _).mp ?_
  rw [String.toList_append]
  refine hfirst.append (fun l hl => ?_) hsecond
  refine last_of_derivesStmts hder l.token ?_
  rw [List.getLast?_map, Option.mem_def.mp hl]
  rfl

/-- **Programs concatenate.**  Behind a source that is a program, with nothing between, a program
adds its statements, and a source that is none is refused as it is by itself, at the place where
it stands now. -/
theorem parse_append {s₁ : String} {p₁ : Program} (h : (ofString s₁).parse = .ok p₁)
    (s₂ : String) :
    (ofString (s₁ ++ s₂)).parse =
      match (ofString s₂).parse with
      | .ok p₂ => .ok (p₁ ++ p₂)
      | .error why => .error (why.moved (.behind s₁.toList)) := by
  obtain ⟨hlexemes, hcut⟩ := feed_append h s₂
  have hmoved := Parser.program_moves (.behind s₁.toList) (ofString s₂).feed.cut
    (ofString s₂).feed.lexemes
  rw [parse, hlexemes, hcut, Parser.program_append (Parser.program_reads h).2, hmoved, parse]
  cases Parser.program (ofString s₂).feed.cut (ofString s₂).feed.lexemes <;> rfl

/-- A sum that lacks an operand, behind a program that ends in the middle of its second line. -/
theorem parse_append_secondLine :
    (∃ p, (ofString "x := 2;\nprint x; ").parse = .ok p) ∧
      (ofString "print x +;").parse = .error (.expected .operand .semicolon ⟨1, 10⟩) ∧
      (ofString ("x := 2;\nprint x; " ++ "print x +;")).parse
        = .error (.expected .operand .semicolon ⟨2, 19⟩) := by
  obtain ⟨p, hp⟩ := exists_of_isOk (s := ofString "x := 2;\nprint x; ") (by decide +kernel)
  have hrefused : (ofString "print x +;").refusal?
      = some (.expected .operand .semicolon ⟨1, 10⟩) := by
    decide +kernel
  have happend := parse_append hp "print x +;"
  rw [parse_of_refusal hrefused] at happend
  exact ⟨⟨p, hp⟩, parse_of_refusal hrefused, happend⟩

end Source

end LoopFree
