/-
The loops of the parsers, a round at a time.

Every parser is one step after another, and what is shown of steps one after another is then shown
of it.  For the loops this takes an equation for a round: an operator and what is joined on by it
(`chainFrom_eq`), a statement and the others behind it (`statements_eq`), and the same where the
program has to end behind them (`toEnd_cons`).  A statement that may be missing is made a step by
`orNone`.
-/
import LoopFree.Proofs.Syntax.PromptStmt

namespace LoopFree.Parser

variable {cut : Option LexError}

/-! ### Where no tokens are left

At the end of the tokens, with the failure there, a parser can do two things: fail with it, or be
content with nothing.  Steps that can do only this can do only this together.
-/

section Quiet

variable {α β : Type} {why : LexError} {r : Except ParseError (α × List Lexeme)}

/-- What can come of a parser where no tokens are left and the failure stands. -/
def Quiet (why : LexError) (r : Except ParseError (α × List Lexeme)) : Prop :=
  r = .error (.lexical why) ∨ ∃ x, r = .ok (x, [])

theorem Quiet.bind {j : α → Parser β} (h : Quiet why r)
    (hj : ∀ x, r = .ok (x, []) → Quiet why (j x [])) : Quiet why (r >>= fun a => j a.1 a.2) := by
  rcases h with rfl | ⟨x, rfl⟩
  · exact Or.inl rfl
  · exact hj x rfl

end Quiet

/-! ### Chains of operators -/

section Chains

variable {joins : Joins} {part : Parser Expr}

/-- Takes an operator, if one is next. -/
def joining (joins : Joins) : Parser (Option (Expr → Expr → Expr))
  | [] => .ok (none, [])
  | l :: rest =>
      match joins l.token with
      | none => .ok (none, l :: rest)
      | some join => .ok (some join, rest)

/-- Goes on with what `next` does, once the part behind an operator is joined on.  Without an
operator there is no more to do. -/
def goOn (part : Parser Expr) (next : Expr → Parser Expr) (left : Expr) :
    Option (Expr → Expr → Expr) → Parser Expr
  | none, ts => .ok (left, ts)
  | some join, ts => part ts >>= fun r => next (join left r.1) r.2

private theorem chainFrom_nil (bound : List Lexeme) (left : Expr) :
    chainFrom joins part bound left [] = .ok (left, []) :=
  chainFrom_of_ends (fun l hl => by cases hl) bound left

theorem quiet_chainFrom {why : LexError} (bound : List Lexeme) (left : Expr) :
    Quiet why (chainFrom joins part bound left []) :=
  Or.inr ⟨left, chainFrom_nil bound left⟩

/-- A round of the loop over operators. -/
theorem chainFrom_eq {bound ts : List Lexeme} (left : Expr) (hbound : ts.length ≤ bound.length) :
    chainFrom joins part bound left ts = joining joins ts >>= fun t =>
      goOn part (chainFrom joins part bound.tail) left t.1 t.2 := by
  cases ts with
  | nil => exact chainFrom_nil bound left
  | cons l rest =>
      obtain ⟨b, bound, rfl⟩ := List.exists_cons_of_length_pos (Nat.lt_of_lt_of_le
        (Nat.succ_pos _) hbound)
      rw [chainFrom, joining]
      cases joins l.token <;> rfl

theorem joinedOnce_eq (ts : List Lexeme) :
    joinedOnce joins part ts = part ts >>= fun r => joining joins r.2 >>= fun t =>
      goOn part (fun e ts => .ok (e, ts)) r.1 t.1 t.2 := by
  unfold joinedOnce
  congr 1
  funext ⟨left, rest⟩
  cases rest with
  | nil => exact chainFrom_nil _ left
  | cons l rest =>
      show chainFrom joins part [l] left (l :: rest) = _
      rw [chainFrom, joining]
      cases joins l.token <;> rfl

/-- What is behind an operator is shorter. -/
theorem length_lt_of_joining {ts rest : List Lexeme} {join : Expr → Expr → Expr}
    (h : joining joins ts = .ok (some join, rest)) : rest.length < ts.length := by
  cases ts with
  | nil => cases h
  | cons l after =>
      rw [joining] at h
      cases hjoins : joins l.token <;> rw [hjoins] at h <;> cases h
      exact Nat.lt_succ_self _

end Chains

/-- The parser leaves no more tokens than it was given. -/
def Shrinks {α : Type} (p : Parser α) : Prop :=
  ∀ ⦃ts rest : List Lexeme⦄ ⦃x : α⦄, p ts = .ok (x, rest) → rest.length ≤ ts.length

theorem shrinks_of_reads {α : Type} {p : Parser α} {G : List Lexeme → α → Prop}
    (h : Reads p G) : Shrinks p := by
  intro ts rest x hok
  obtain ⟨used, rfl, -⟩ := h hok
  rw [List.length_append]
  omega

/-! ### Statements -/

/-- What was found on the tokens, of which nothing is taken if there was no statement. -/
def orLeave (ts : List Lexeme) :
    Option (Stmt × List Lexeme) → Except ParseError (Option Stmt × List Lexeme)
  | none => .ok (none, ts)
  | some (s, rest) => .ok (some s, rest)

/-- The parser, which takes nothing where it finds no statement. -/
def orNone (p : StmtParser) : Parser (Option Stmt) :=
  fun ts => p ts >>= orLeave ts

/-- The error at what stands in the place of a statement. -/
def stray {α : Type} (cut : Option LexError) : Parser α
  | [] => .error (endError cut .statement)
  | l :: _ => .error (.unexpectedToken l.token l.position)

/-- The statement, or the error at what stands in its place. -/
def orStray (cut : Option LexError) : Option Stmt → Parser Stmt
  | some s, ts => .ok (s, ts)
  | none, ts => stray cut ts

theorem required_eq (p : StmtParser) (ts : List Lexeme) :
    required cut p ts = orNone p ts >>= fun t => orStray cut t.1 t.2 := by
  unfold required orNone
  cases p ts with
  | error why => rfl
  | ok found =>
      cases found with
      | some r => rfl
      | none => cases ts <;> rfl

section Statements

variable {p : StmtParser} {room : Nat} (hnil : p [] = .ok none)
  (hreads : ReadsStmt p (StmtWithin room))

/-- The statements behind the first one, if there was a first one. -/
def others (p : StmtParser) : Option Stmt → Parser (List Stmt)
  | none, ts => .ok ([], ts)
  | some s, ts => statements p ts >>= fun r => .ok (s :: r.1, r.2)

include hreads in
/-- A statement takes a token. -/
theorem length_lt_of_orNone {ts rest : List Lexeme} {s : Stmt}
    (h : orNone p ts = .ok (some s, rest)) : rest.length < ts.length := by
  obtain ⟨found, hfound, hend⟩ := bind_eq_ok.mp h
  cases found with
  | none => cases hend
  | some r =>
      cases hend
      exact length_lt_of_readsStmt hreads hfound

include hreads in
theorem length_lt_of_required {ts rest : List Lexeme} {s : Stmt}
    (h : required cut p ts = .ok (s, rest)) : rest.length < ts.length := by
  rw [required_eq] at h
  obtain ⟨⟨found, mid⟩, hfound, hend⟩ := bind_eq_ok.mp h
  cases found with
  | none => cases mid <;> cases hend
  | some s =>
      cases hend
      exact length_lt_of_orNone hreads hfound

include hnil in
theorem quiet_statements {why : LexError} : Quiet why (statements p []) :=
  Or.inr ⟨[], statements_of_absent hnil⟩

include hnil hreads in
/-- A round of the loop over statements. -/
theorem statements_eq (ts : List Lexeme) :
    statements p ts = orNone p ts >>= fun t => others p t.1 t.2 := by
  unfold orNone
  cases hfound : p ts with
  | error why => exact statements_of_error hnil hfound
  | ok found =>
      cases found with
      | none => exact statements_of_absent hfound
      | some r => exact statements_of_found hnil hreads hfound

/-! ### Programs -/

/-- What stands behind the statements has to be the end. -/
def atEnd (cut : Option LexError) (ss : List Stmt) : Parser (List Stmt)
  | [] =>
      match cut with
      | none => .ok (ss, [])
      | some why => .error (.lexical why)
  | l :: _ => .error (.unexpectedToken l.token l.position)

/-- Statements up to the end. -/
def toEnd (cut : Option LexError) (p : StmtParser) : Parser (List Stmt) :=
  fun ts => statements p ts >>= fun r => atEnd cut r.1 r.2

theorem program_eq (ts : List Lexeme) :
    program cut ts = (·.1) <$> toEnd cut (statement cut maxNesting) ts := by
  unfold program toEnd
  cases statements (statement cut maxNesting) ts with
  | error why => rfl
  | ok r =>
      obtain ⟨body, rest⟩ := r
      cases rest with
      | nil => cases cut <;> rfl
      | cons l rest => rfl

/-- Only without a failure is the end reached. -/
theorem cut_of_toEnd {ts rest : List Lexeme} {ss : List Stmt}
    (h : toEnd cut p ts = .ok (ss, rest)) : cut = none := by
  obtain ⟨⟨body, mid⟩, -, hend⟩ := bind_eq_ok.mp h
  cases mid with
  | nil =>
      cases cut with
      | none => rfl
      | some why => cases hend
  | cons l mid => cases hend

include hnil in
theorem toEnd_nil : toEnd cut p [] = atEnd cut [] [] := by
  unfold toEnd
  rw [statements_of_absent hnil]
  rfl

include hnil hreads in
/-- A round of the loop over the statements of a program, where nothing but a statement will do. -/
theorem toEnd_cons (l : Lexeme) (rest : List Lexeme) :
    toEnd cut p (l :: rest) = required cut p (l :: rest) >>= fun t =>
      toEnd cut p t.2 >>= fun r => .ok (t.1 :: r.1, r.2) := by
  unfold toEnd
  rw [statements_eq hnil hreads, required_eq]
  unfold orNone
  cases p (l :: rest) with
  | error why => rfl
  | ok found =>
      cases found with
      | none => rfl
      | some r =>
          obtain ⟨s, after⟩ := r
          show (statements p after >>= _) >>= _ = (statements p after >>= _) >>= _
          cases statements p after with
          | error why => rfl
          | ok t =>
              obtain ⟨ss, behind⟩ := t
              cases behind with
              | nil => cases cut <;> rfl
              | cons m behind => rfl

end Statements

end LoopFree.Parser
