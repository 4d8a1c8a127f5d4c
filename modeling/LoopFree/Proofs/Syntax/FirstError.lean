/-
The error that is reported is the first there is.

Tokens are viable when something can be added to them that makes a program.  A source that
is refused is refused at the place where its tokens stop being viable.  What stands before
the token that the error is about is viable, and with that token it is not.  There is one
exception: a name is looked past before it is refused, so it may be the token behind it that
cannot stand there.  Where the error is the end of the source, or a place where the source
cannot be read on, all the tokens before are viable.

The parser's runs know this already.  What is left to do is to take the step from tokens that
begin a program to tokens that are viable, and back from an error that does not depend on what
follows to tokens that are not.
-/
import LoopFree.Proofs.Syntax.Acceptance
import LoopFree.Proofs.Syntax.PromptStmt
import LoopFree.Proofs.Token.Placement

namespace LoopFree

/-! ### Viable tokens

An error should be reported as soon as nothing can make a program of what was read, and no sooner.
Whether something can is a question about the grammar, and the parser does not come into it.
-/

/-- The parser accepts the tokens, wherever they stand. -/
def Accepted (ts : List Token) : Prop :=
  ∃ ls p, ls.map Lexeme.token = ts ∧ Parser.program none ls = .ok p

/-- The tokens can be extended to tokens that the parser accepts. -/
def Viable (ts : List Token) : Prop :=
  ∃ more, Accepted (ts ++ more)

namespace Parser

/-- What is derived depends on the tokens alone, not on where they stand. -/
theorem StmtsWithin.of_tokens {room : Nat} {ls ls' : List Lexeme} {p : Program}
    (h : StmtsWithin room ls p) (htokens : ls'.map Lexeme.token = ls.map Lexeme.token) :
    StmtsWithin room ls' p := by
  obtain ⟨d, hd, hder, hrange⟩ := h
  refine ⟨d, hd, htokens ▸ hder, fun l hl => ?_⟩
  have hmem : l.token ∈ ls.map Lexeme.token := htokens ▸ List.mem_map_of_mem hl
  obtain ⟨k, hk, hkl⟩ := List.mem_map.mp hmem
  rw [← hkl]
  exact hrange k hk

/-- The parser accepts what the grammar derives, within its limits. -/
theorem accepted_iff (ls : List Lexeme) :
    Accepted (ls.map Lexeme.token) ↔ ∃ p, StmtsWithin maxNesting ls p := by
  constructor
  · rintro ⟨ls', p, htokens, hok⟩
    exact ⟨p, (program_reads hok).2.of_tokens htokens.symm⟩
  · rintro ⟨p, d, hd, hder, hrange⟩
    exact ⟨ls, p, rfl, program_of_derives hder ⟨hd, rfl, hrange⟩⟩

/-- Viable tokens are those that begin a program. -/
theorem viable_iff (ls : List Lexeme) :
    Viable (ls.map Lexeme.token) ↔ Begins (StmtsWithin maxNesting) ls := by
  constructor
  · rintro ⟨more, haccepted⟩
    have hmore : (more.map fun t => (⟨t, ⟨1, 1⟩⟩ : Lexeme)).map Lexeme.token = more := by
      rw [List.map_map]
      exact List.map_id more
    rw [← hmore, ← List.map_append] at haccepted
    exact ⟨_, (accepted_iff _).mp haccepted⟩
  · rintro ⟨more, hsome⟩
    refine ⟨more.map Lexeme.token, ?_⟩
    rw [← List.map_append]
    exact (accepted_iff _).mpr hsome

/-- Tokens behind which nothing but an error can follow are not viable. -/
theorem not_viable {ls : List Lexeme} (why : ParseError)
    (h : ∀ us, program none (ls ++ us) = .error why) : ¬ Viable (ls.map Lexeme.token) := by
  intro hviable
  obtain ⟨more, p, d, hd, hder, hrange⟩ := (viable_iff ls).mp hviable
  have hok := program_of_derives hder ⟨hd, rfl, hrange⟩
  rw [h more] at hok
  cases hok

/-! ### Where a program is refused -/

/-- A program is refused where a token cannot go on it, or at the end. -/
theorem program_stops {cut : Option LexError} {ls : List Lexeme} {why : ParseError}
    (h : program cut ls = .error why) :
    ∃ pre post, pre ++ post = ls ∧ Begins (StmtsWithin maxNesting) pre ∧ Blames cut why post ∧
      (post ≠ [] → ∀ us, SameStart cut post us → program none (pre ++ us) = .error why) := by
  have hreads : ∀ cut, ReadsStmt (statement cut maxNesting) (StmtWithin maxNesting) :=
    fun cut => statement_reads maxNesting
  have hcourse : Course (statements (statement none maxNesting))
      (Begins (StmtsWithin maxNesting)) cut ls (statements (statement cut maxNesting) ls) :=
    statements_prompt (statement_prompt maxNesting) hreads (fun cut => statement_nil maxNesting)
      cut ls
  unfold program at h
  cases hbody : statements (statement cut maxNesting) ls with
  | error why' =>
      rw [hbody] at h hcourse
      cases h
      cases hcourse with
      | @stopped pre post _ hbegins hblames hsteady =>
          refine ⟨pre, post, rfl, hbegins, hblames, fun hne us hus => ?_⟩
          unfold program
          rw [hsteady hne us hus]
          rfl
  | ok r =>
      obtain ⟨body, rest⟩ := r
      obtain ⟨used', hused, hin⟩ := statementsFrom_reads (hreads cut) ls hbody
      rw [hbody] at h hcourse
      cases hcourse with
      | @read used _ _ hsteady =>
          obtain rfl : used' = used := List.append_cancel_right hused
          cases rest with
          | nil =>
              cases cut with
              | none => cases h
              | some cause =>
                  cases h
                  exact ⟨used', [], rfl, .of hin, .ended .statement, fun hne => absurd rfl hne⟩
          | cons l rest =>
              cases h
              refine ⟨used', l :: rest, rfl, .of hin, .unexpected l rest, fun _ us hus => ?_⟩
              obtain ⟨us', rfl⟩ := hus.cons
              unfold program
              rw [hsteady _ hus]
              rfl

end Parser

/-! ### The first error

The token that is reported is the one at which the tokens stop being viable, or the end if they
are viable up to it.  A name is special: it may still begin an assignment, and if the next token
shows that it does not, it is the name that is reported.
-/

/-- The error is about this token: it says where the token stands, and which token it is if it
says anything of that. -/
def ParseError.About : ParseError → Lexeme → Prop
  | expected _ found p, k => found = k.token ∧ p = k.position
  | unexpectedToken t p, k => t = k.token ∧ p = k.position
  | numberOutOfRange digits p, k => k.token = .integer digits ∧ p = k.position
  | tooDeep p, k => p = k.position
  | _, _ => False

/-- The tokens stop being viable at token `k`, or behind it if it is a name. -/
structure FirstFault (cut : Option LexError) (ls before : List Lexeme) (k : Lexeme)
    (after : List Lexeme) : Prop where
  split : ls = before ++ k :: after
  viable : Viable (before.map Lexeme.token)
  fault : ¬ Viable ((before ++ [k]).map Lexeme.token) ∨
    ∃ x, k.token = .identifier x ∧
      ((after = [] ∧ cut = none) ∨
        ∃ l rest, after = l :: rest ∧ ¬ Viable ((before ++ [k, l]).map Lexeme.token))

namespace Parser

private theorem firstFault_of_stops {cut : Option LexError} {before after : List Lexeme}
    {k : Lexeme} {why : ParseError} (hbegins : Begins (StmtsWithin maxNesting) before)
    (hsteady : ∀ us, SameStart cut (k :: after) us → program none (before ++ us) = .error why) :
    FirstFault cut (before ++ k :: after) before k after := by
  refine ⟨rfl, (viable_iff before).mpr hbegins, ?_⟩
  have hone : (∀ us, SameStart cut (k :: after) (k :: us)) →
      ¬ Viable ((before ++ [k]).map Lexeme.token) := by
    intro hsame
    refine not_viable why fun us => ?_
    rw [← List.append_cons]
    exact hsteady _ (hsame us)
  by_cases hname : ∃ x, k.token = .identifier x
  · obtain ⟨x, hx⟩ := hname
    cases after with
    | nil =>
        by_cases hcut : cut = none
        · exact Or.inr ⟨x, hx, Or.inl ⟨rfl, hcut⟩⟩
        · refine Or.inl (hone fun us => ⟨rfl, fun l rest y hl _ => Or.inl ?_⟩)
          cases hl
          exact ⟨rfl, hcut⟩
    | cons l rest =>
        refine Or.inr ⟨x, hx, Or.inr ⟨l, rest, rfl, not_viable why fun us => ?_⟩⟩
        rw [List.append_assoc]
        refine hsteady _ ⟨rfl, fun m rest' y hm _ => Or.inr ?_⟩
        cases hm
        rfl
  · refine Or.inl (hone fun us => ⟨rfl, fun l rest y hl hy => absurd ⟨y, ?_⟩ hname⟩)
    cases hl
    exact hy

end Parser

/-- The error is the first there is in what was read of a source.  A failure to read on is
behind tokens that are all viable.  So is an unexpected end, behind the whole source.  Any other
error is about the token at which the tokens stop being viable. -/
def ParseError.IsFirst (f : Cursor.Feed) : ParseError → Prop
  | lexical cause =>
      f.cut = some cause ∧ cause.Persists ∧ Viable (f.lexemes.map Lexeme.token)
  | unexpectedEnd _ =>
      f.cut = none ∧ Viable (f.lexemes.map Lexeme.token) ∧ ¬ Accepted (f.lexemes.map Lexeme.token)
  | why => ∃ before k after, why.About k ∧ FirstFault f.cut f.lexemes before k after

/-- **The first error is the one that is reported.** -/
theorem Source.parse_first_error (s : String) {why : ParseError}
    (h : (Source.ofString s).parse = .error why) : why.IsFirst (Source.ofString s).feed := by
  obtain ⟨pre, post, hls, hbegins, hblames, hsteady⟩ := Parser.program_stops h
  have hviable : post = [] → Viable ((Source.ofString s).feed.lexemes.map Lexeme.token) := by
    intro hend
    rw [hend, List.append_nil] at hls
    rw [← hls]
    exact (Parser.viable_iff pre).mpr hbegins
  have hfault : ∀ k after, post = k :: after → FirstFault (Source.ofString s).feed.cut
      (Source.ofString s).feed.lexemes pre k after := by
    rintro k after rfl
    rw [← hls]
    exact Parser.firstFault_of_stops hbegins (hsteady (List.cons_ne_nil k after))
  cases hblames with
  | ended what =>
      cases hcut : (Source.ofString s).feed.cut with
      | none =>
          refine ⟨hcut, hviable rfl, fun haccepted => ?_⟩
          obtain ⟨p, d, hd, hder, hrange⟩ := (Parser.accepted_iff _).mp haccepted
          have hok := Parser.program_of_derives hder ⟨hd, rfl, hrange⟩
          rw [Source.parse, hcut, hok] at h
          cases h
      | some cause => exact ⟨hcut, (Source.laidOut s).persists cause hcut, hviable rfl⟩
  | expected what l rest => exact ⟨pre, l, rest, ⟨rfl, rfl⟩, hfault l rest rfl⟩
  | unexpected l rest => exact ⟨pre, l, rest, ⟨rfl, rfl⟩, hfault l rest rfl⟩
  | outOfRange digits p rest => exact ⟨pre, _, rest, ⟨rfl, rfl⟩, hfault _ rest rfl⟩
  | tooDeep l rest => exact ⟨pre, l, rest, rfl, hfault l rest rfl⟩

/-- A parenthesis that is not closed, in front of a character that is no token. -/
theorem Source.parse_first_error_unclosed :
    (Source.ofString "print (1 + 2; @").parse
        = .error (.expected (.token .rightParen) .semicolon ⟨1, 13⟩) ∧
      ParseError.IsFirst (Source.ofString "print (1 + 2; @").feed
        (.expected (.token .rightParen) .semicolon ⟨1, 13⟩) := by
  have hrefused : (Source.ofString "print (1 + 2; @").refusal?
      = some (.expected (.token .rightParen) .semicolon ⟨1, 13⟩) := by
    decide +kernel
  have hparse := Source.parse_of_refusal hrefused
  exact ⟨hparse, Source.parse_first_error _ hparse⟩

end LoopFree
