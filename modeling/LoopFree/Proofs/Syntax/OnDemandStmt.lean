/-
Reading statements and programs from a look-ahead, beside reading them from a list.

A parser of statements is compared as one that answers with a statement or with none.  Each way of
putting a statement together keeps the two readings in step, and so does each round of the loops.

A program ends with the tokens, so there a failure behind the last of them is met by both readings:
`Access.parse_eq` says that they come to the same, whatever the access.
-/
import LoopFree.Proofs.Syntax.Acceptance
import LoopFree.Proofs.Syntax.OnDemand

namespace LoopFree

namespace OnDemand

open LoopFree.Parser (Quiet ReadsStmt StmtWithin orLeave orNone stray orStray required_eq
  statements_eq length_lt_of_orNone quiet_statements toEnd toEnd_nil toEnd_cons
  length_lt_of_required)

variable {cut : Option LexError} (a : Access)

/-! ### One statement

Mostly the token at the head tells which statement it is, and it is held from then on.  For a name
it does not, and a second token has to be looked at before the first one is taken.
-/

section Statement

/-- A statement behind the token that opens it. -/
theorem Agrees.found {r : Except ParseError (Stmt × List Lexeme)}
    {r' : Except ParseError (Stmt × Lookahead)} (h : Agrees cut r r') (ts : List Lexeme) :
    Agrees cut ((some <$> r) >>= orLeave ts) (r' >>= fun t => .ok (some t.1, t.2)) := by
  cases h with
  | read hahead => exact .read hahead
  | failed hwhy => exact .failed hwhy
  | early hcut => exact .early hcut

variable {sum : Parser Expr} {sum' : OnDemand Expr}

private theorem printed_follows
    (hshown : Follows cut (Parser.joinedOnce Parser.compareJoins sum)
      (joinedOnce a compareOperators sum')) :
    FollowsOpened cut .printWord
      (fun _ => Parser.closed cut (Parser.joinedOnce Parser.compareJoins sum) .print)
      (printed a sum') := by
  intro s l rest hholds hkind
  obtain ⟨s', hexpect, hahead⟩ := expect_ahead a hholds.toAhead hkind
  unfold printed
  rw [bind_apply, hexpect]
  exact (hshown.followed a (k := .semicolon) (by simp [Expectation.Sought]) Stmt.print).agrees
    hahead

private theorem assignment_agrees (hsum : Follows cut sum sum') {s : Lookahead} {x : String}
    {place : Position} {l : Lexeme} {rest : List Lexeme} (hl : l.token.kind = .assign)
    (h : s.Ahead (⟨.identifier x, place⟩ :: l :: rest) cut) :
    Agrees cut (Parser.closed cut sum (.assign x) rest) (assignment a sum' s) := by
  obtain ⟨s', hname, hahead⟩ := expectName_ahead a h
  obtain ⟨s'', hassign, hahead'⟩ := expect_ahead a hahead hl
  unfold assignment
  rw [bind_apply, hname]
  show Agrees cut _ (expect a .assign s' >>= _)
  rw [hassign]
  exact (hsum.followed a (k := .semicolon) (by simp [Expectation.Sought]) (Stmt.assign x)).agrees
    hahead'

/-- A name starts a statement if an assignment sign is behind it. -/
theorem name_agrees (hsum : Follows cut sum sum') {ifs blocks : Opened Stmt} {s : Lookahead}
    {x : String} {place : Position} {rest : List Lexeme}
    (hholds : s.Holds ⟨.identifier x, place⟩ rest cut) :
    Agrees cut (orNone (Parser.statementOver cut sum ifs blocks) (⟨.identifier x, place⟩ :: rest))
      ((peekKind a 1 >>= fun second =>
        if second = some .assign then assignment a sum' >>= fun s => pure (some s)
        else pure none) s) := by
  have hseen := peekKind_seen a [⟨.identifier x, place⟩] hholds.toAhead
  rw [bind_apply]
  generalize peekKind a 1 s = r at hseen ⊢
  cases hseen with
  | @token s m rest hahead hheld =>
      by_cases hkind : m.token.kind = .assign
      · have hassignment := (assignment_agrees a hsum hkind hahead).found
          (⟨.identifier x, place⟩ :: m :: rest)
        obtain ⟨t, place'⟩ := m
        obtain rfl : t = .assign := Token.eq_of_kind_eq (u := .assign) rfl hkind
        exact hassignment
      · have hother : Parser.statementOver cut sum ifs blocks (⟨.identifier x, place⟩ :: m :: rest)
            = .ok none := by
          obtain ⟨t, place'⟩ := m
          cases t <;> first | rfl | exact absurd rfl hkind
        show Agrees cut _ ((if some m.token.kind = some .assign then _ else _ :
          OnDemand (Option Stmt)) s)
        rw [orNone, hother, if_neg (by simpa using hkind)]
        exact .read hahead
  | ended hahead hcut =>
      subst hcut
      exact .read hahead
  | failed hcut =>
      subst hcut
      exact .failed rfl

private theorem statementOver_follows (hsum : Follows cut sum sum')
    (hshown : Follows cut (Parser.joinedOnce Parser.compareJoins sum)
      (joinedOnce a compareOperators sum'))
    {ifs blocks : Opened Stmt} {ifs' blocks' : OnDemand Stmt}
    (hifs : FollowsOpened cut .ifWord ifs ifs')
    (hblocks : FollowsOpened cut .leftBrace blocks blocks') :
    Follows cut (orNone (Parser.statementOver cut sum ifs blocks))
      (statementOver a sum' ifs' blocks') := by
  refine follows_of_peek a (fun {s l rest} hholds => ?_) (fun hahead => .read hahead)
    fun _ => Or.inr ⟨none, rfl⟩
  obtain ⟨t, place⟩ := l
  cases t with
  | printWord => exact (printed_follows a hshown hholds rfl).found _
  | identifier x => exact name_agrees a hsum hholds
  | semicolon =>
      obtain ⟨s', htaken, hahead⟩ := advance_holds a (· = .semicolon) hholds rfl
      show Agrees cut _ (advance a _ s >>= _)
      rw [htaken]
      exact .read hahead
  | ifWord => exact (hifs hholds rfl).found _
  | leftBrace => exact (hblocks hholds rfl).found _
  | _ => exact .read hholds.toAhead

private theorem unexpected_follows {α : Type} : Follows cut (@stray α cut) (unexpected a) where
  agrees {s ts} h := by
    have hseen := hasNext_seen [] h
    unfold unexpected
    rw [bind_apply]
    generalize hasNext 1 s = r at hseen ⊢
    cases hseen with
    | @token s l rest hahead hheld =>
        show Agrees cut _ (look a 0 s >>= _)
        rw [look_holds a ⟨hahead, hheld⟩]
        exact .failed trivial
    | ended hahead hcut =>
        subst hcut
        exact .failed trivial
    | failed hcut =>
        subst hcut
        exact .failed rfl
  quiet hcut := by
    subst hcut
    exact Or.inl rfl

variable {p : Parser.StmtParser} {q : OnDemand (Option Stmt)}

private theorem required_follows (hp : Follows cut (orNone p) q) :
    Follows cut (Parser.required cut p) (required a q) := by
  rw [funext (required_eq p)]
  refine hp.bind (j := orStray cut) (k := orUnexpected a) fun found => ?_
  cases found with
  | some s => exact follows_pure s
  | none => exact unexpected_follows a

private theorem ifThen_follows {c : Parser Expr} {c' : OnDemand Expr} (hc : Follows cut c c')
    (hp : Follows cut (orNone p) q) :
    FollowsOpened cut .ifWord (Parser.ifThen cut c p) (ifThen a c' q) := by
  intro s l rest hholds hkind
  obtain ⟨s', hexpect, hahead⟩ := expect_ahead a hholds.toAhead hkind
  have hleft : Expectation.Sought (.token .leftParen) := by simp [Expectation.Sought]
  have hright : Expectation.Sought (.token .rightParen) := by simp [Expectation.Sought]
  unfold ifThen
  rw [bind_apply, hexpect]
  exact ((expect_follows a hleft).bind fun _ => hc.bind fun c => (expect_follows a hright).bind
    fun _ => (required_follows a hp).bind fun body => follows_pure (Stmt.ifThen c body)).agrees
      hahead

end Statement

/-! ### Statements one after another

The loops over statements are bounded, on one side by the tokens there are and on the other by the
tokens there could be.  As long as both bounds suffice they do not matter.
-/

section Statements

variable {p : Parser.StmtParser} {q : OnDemand (Option Stmt)} {room : Nat}
  (hp : Follows cut (orNone p) q) (hnil : p [] = .ok none) (hreads : ReadsStmt p (StmtWithin room))

include hp hnil hreads

private theorem statementsFrom_agrees (rounds : Nat) : ∀ {ts : List Lexeme} {s : Lookahead},
    ts.length < rounds → s.Ahead ts cut →
    Agrees cut (Parser.statements p ts) (statementsFrom q rounds s) := by
  induction rounds with
  | zero =>
      intro ts s hrounds
      exact absurd hrounds (Nat.not_lt_zero _)
  | succ rounds ih =>
      intro ts s hrounds h
      rw [statements_eq hnil hreads]
      refine Agrees.bind (k := withOthers (statementsFrom q rounds))
        (hp.agrees h) (fun {found rest s} hfound hahead => ?_) fun {found why} _ _ => ?_
      · cases found with
        | none => exact .read hahead
        | some t =>
            have hlt := length_lt_of_orNone hreads hfound
            exact (ih (by omega) hahead).bind (j := fun ss ts => .ok (t :: ss, ts))
              (k := fun ss => pure (t :: ss)) (fun _ hahead => .read hahead)
              fun _ _ => Or.inr ⟨_, rfl⟩
      · cases found with
        | none => exact Or.inr ⟨[], rfl⟩
        | some t =>
            exact (quiet_statements hnil).bind (j := fun ss ts => .ok (t :: ss, ts))
              fun ss _ => Or.inr ⟨_, rfl⟩

/-- **Statements are read alike**: the rounds that the look-ahead allows are enough. -/
theorem statements_follows :
    Follows cut (Parser.statements p) (rounds >>= fun n => statementsFrom q n) where
  agrees h := statementsFrom_agrees hp hnil hreads _ (Nat.lt_succ_of_le h.length_le) h
  quiet _ := quiet_statements hnil

private theorem block_follows : FollowsOpened cut .leftBrace (Parser.block cut p) (block a q) := by
  intro s l rest hholds hkind
  obtain ⟨s', hexpect, hahead⟩ := expect_ahead a hholds.toAhead hkind
  unfold block
  rw [bind_apply, hexpect]
  exact ((statements_follows hp hnil hreads).followed a (k := .rightBrace)
    (by simp [Expectation.Sought]) Stmt.block).agrees hahead

/-- The same up to the end of a program. -/
theorem statementsToEnd_agrees (rounds : Nat) : ∀ {ts : List Lexeme} {s : Lookahead},
    ts.length < rounds → s.Ahead ts cut →
    Agrees cut (toEnd cut p ts) (statementsToEnd a q rounds s) := by
  induction rounds with
  | zero =>
      intro ts s hrounds
      exact absurd hrounds (Nat.not_lt_zero _)
  | succ rounds ih =>
      intro ts s hrounds h
      have hseen := hasNext_seen [] h
      unfold statementsToEnd
      rw [bind_apply]
      generalize hasNext 1 s = r at hseen ⊢
      cases hseen with
      | ended hahead hcut =>
          subst hcut
          rw [toEnd_nil hnil]
          exact .read hahead
      | failed hcut =>
          subst hcut
          rw [toEnd_nil hnil]
          exact .failed rfl
      | @token s l rest hahead hheld =>
          rw [toEnd_cons hnil hreads]
          refine Agrees.bind (j := fun t ts => toEnd cut p ts >>= fun r => .ok (t :: r.1, r.2))
            (k := fun t => statementsToEnd a q rounds >>= fun ss => pure (t :: ss))
            ((required_follows a hp).agrees hahead) (fun {t rest s} hfound hahead => ?_)
            fun {t why} _ hcut => ?_
          · have hlt := length_lt_of_required hreads hfound
            exact (ih (by omega) hahead).bind (j := fun ss ts => .ok (t :: ss, ts))
              (k := fun ss => pure (t :: ss)) (fun _ hahead => .read hahead)
              fun _ _ => Or.inr ⟨_, rfl⟩
          · subst hcut
            rw [toEnd_nil hnil]
            exact Or.inl rfl

end Statements

/-- **A statement is read alike**, with as much room for nesting. -/
theorem statement_follows : ∀ room,
    Follows cut (orNone (Parser.statement cut room)) (statement a room)
  | 0 =>
      statementOver_follows a (sum_follows a 0) (shown_follows a 0) (noRoom_follows a .ifWord)
        (noRoom_follows a .leftBrace)
  | room + 1 =>
      have hbody := statement_follows room
      statementOver_follows a (sum_follows a (room + 1)) (shown_follows a (room + 1))
        (ifThen_follows a (condition_follows a room) hbody)
        (block_follows a hbody (Parser.statement_nil room) (Parser.statement_reads room))

end OnDemand

/-! ### Sources -/

/-- The failures that a source can have. -/
def LexError.OfSource : LexError → Prop
  | unexpectedCharacter .. | malformedExponent .. | unreadable _ => True
  | notEnoughTokens .. | invalidTable _ => False

private theorem Cursor.ofSource_of_cut {c : Cursor} {why : LexError} :
    c.feed.cut = some why → why.OfSource := by
  induction c using Cursor.next_induction with
  | done c after h =>
      rw [feed_of_done h]
      intro hcut
      cases hcut
  | failed c why' after h =>
      rw [feed_of_failed h]
      intro hcut
      cases hcut
      rcases next_cases c with ⟨q, hc⟩ | ⟨cause, q, unread, hc⟩ | ⟨d, hc, -⟩
      · rw [hc] at h
        cases h
      · rw [hc] at h
        cases h
        trivial
      · have hpersists := (scanHere_stays.2 why after (hc.symm.trans h)).2
        cases why <;> trivial
  | lexeme c l after h ih =>
      rw [feed_of_lexeme h]
      exact ih

/-- None of these is named by an error about something sought. -/
theorem Expectation.Sought.describe_not_mem {what : Expectation} (h : what.Sought) :
    what.describe ∉ ["a number", "identifier", "':='", "'print'", "'if'", "'\x7b'"] := by
  cases what with
  | token k => rcases h with rfl | rfl | rfl | rfl <;> decide
  | operand | truth | statement => decide
  | number => exact h.elim

namespace Access

/-- What reading a source on demand comes to, beside reading it from its tokens. -/
theorem program_agrees (a : Access) (s : Source) :
    OnDemand.Agrees s.feed.cut
      (Parser.toEnd s.feed.cut (Parser.statement s.feed.cut maxNesting) s.feed.lexemes)
      (OnDemand.program a ⟨[], Cursor.start s⟩) := by
  have hahead := Lookahead.ahead_start s
  exact OnDemand.statementsToEnd_agrees a (OnDemand.statement_follows a maxNesting)
    (Parser.statement_nil _) (Parser.statement_reads _) _ (Nat.lt_succ_of_le hahead.length_le)
    hahead

/-- **Read on demand, a source is the program that it is when all its tokens are read first**, or
it fails as it does then; and the errors that there are are among the reported ones. -/
theorem parse_eq (a : Access) (s : Source) :
    a.parse s = s.parse ∧ ∀ why, s.parse = .error why → why.Reported s.feed.cut := by
  have hagrees := a.program_agrees s
  have hparse : s.parse = (·.1) <$> Parser.toEnd s.feed.cut
      (Parser.statement s.feed.cut maxNesting) s.feed.lexemes := Parser.program_eq _
  unfold Access.parse
  rw [Lookahead.open?_eq, hparse]
  generalize hlist : Parser.toEnd _ _ _ = r at hagrees ⊢
  show ((OnDemand.program a ⟨[], Cursor.start s⟩ >>= fun r => .ok r.1) = _) ∧ _
  generalize OnDemand.program a ⟨[], Cursor.start s⟩ = r' at hagrees ⊢
  cases hagrees with
  | read hahead => exact ⟨rfl, fun why h => by cases h⟩
  | failed hwhy =>
      refine ⟨rfl, fun why h => ?_⟩
      cases h
      exact hwhy
  | early hcut =>
      rw [Parser.cut_of_toEnd hlist] at hcut
      cases hcut

/-- With the look-ahead's own requests: the error is met before the failure behind it. -/
example : requests.parse (Source.ofString "print (1; @")
    = .error (.expected (.token .rightParen) .semicolon ⟨1, 9⟩) := by
  rw [(requests.parse_eq _).1]
  exact Source.parse_of_refusal (by decide +kernel)

/-- **The parser relies on nothing that it has not made sure of.**  Whatever looking and taking come
to for a token that is not held, or is of another kind than was made sure of, a source is read as
its tokens are.  So the errors against such tokens do not occur: nothing fails for want of a token
or for the tables, and no error names what has been seen before it is expected. -/
theorem parse_sure (a : Access) (s : Source) :
    a.parse s = s.parse ∧
    (∀ why, a.parse s = .error (.lexical why) →
      (∀ requested available, why ≠ .notEnoughTokens requested available) ∧
      ∀ e, why ≠ .invalidTable e) ∧
    ∀ what, (a.parse s = .error (.unexpectedEnd what) ∨
        ∃ found place, a.parse s = .error (.expected what found place)) →
      what.describe ∉ ["a number", "identifier", "':='", "'print'", "'if'", "'\x7b'"] := by
  obtain ⟨hparse, hreported⟩ := a.parse_eq s
  rw [hparse]
  refine ⟨rfl, fun why h => ?_, fun what h => ?_⟩
  · have hcut : s.feed.cut = some why := hreported _ h
    have hsource := Cursor.ofSource_of_cut hcut
    constructor
    · rintro requested available rfl
      exact hsource
    · rintro e rfl
      exact hsource
  · have hsought : what.Sought := by
      rcases h with h | ⟨found, place, h⟩
      · exact hreported _ h
      · exact hreported _ h
    exact hsought.describe_not_mem

end Access

end LoopFree
