/-
Where a parser of statements stops.

A parser of statements may also find that no statement starts where it stands, and then it
takes nothing; `StmtCourse` has that as a third thing a run can come to.  It is here that a
name is looked at together with the token behind it: a name opens an assignment, and where
no assignment sign follows it, no statement starts.  If a failure stands behind the name
instead, the failure is what is reported, and the name has begun an assignment.
-/
import LoopFree.Proofs.Syntax.Prompt

namespace LoopFree.Parser

open Grammar

/-! ### Runs of a parser of statements

A parser of statements has a third outcome: there is none here.  That is no error yet, since a
list of statements may end there, and so it must not depend on what stands behind the next token
either.
-/

/-- What a run of a parser of statements has come to.  It may also find that no statement starts
here, which it finds on all tokens that look the same. -/
inductive StmtCourse (p : StmtParser) (B : List Lexeme → Prop) (cut : Option LexError) :
    List Lexeme → Except ParseError (Option (Stmt × List Lexeme)) → Prop
  | found {used rest : List Lexeme} {s : Stmt}
      (hsteady : ∀ ts, SameStart cut rest ts → p (used ++ ts) = .ok (some (s, ts))) :
      StmtCourse p B cut (used ++ rest) (.ok (some (s, rest)))
  | absent {ts : List Lexeme} (hsteady : ∀ us, SameStart cut ts us → p us = .ok none) :
      StmtCourse p B cut ts (.ok none)
  | stopped {pre post : List Lexeme} {why : ParseError} (hbegins : B pre)
      (hblames : Blames cut why post)
      (hsteady : post ≠ [] → ∀ ts, SameStart cut post ts → p (pre ++ ts) = .error why) :
      StmtCourse p B cut (pre ++ post) (.error why)

/-- The parser of statements stops at the first token that cannot go on what it has read. -/
def PromptStmt (p : Option LexError → StmtParser) (G : List Lexeme → Stmt → Prop) : Prop :=
  ∀ cut ts, StmtCourse (p none) (Begins G) cut ts (p cut ts)

/-- Behind the tokens that open it, a statement is found as its parser finds it. -/
theorem Course.found {q : Parser Stmt} {p : StmtParser} {B C : List Lexeme → Prop}
    {cut : Option LexError} {opening rest : List Lexeme}
    {r : Except ParseError (Stmt × List Lexeme)} (h : Course q B cut rest r)
    (hp : ∀ us, p (opening ++ us) = some <$> q us) (hC : ∀ pre, B pre → C (opening ++ pre)) :
    StmtCourse p C cut (opening ++ rest) (some <$> r) := by
  cases h with
  | @read used rest s hsteady =>
      rw [← List.append_assoc]
      refine .found fun us hus => ?_
      rw [List.append_assoc, hp, hsteady us hus]
      rfl
  | @stopped pre post why hbegins hblames hsteady =>
      rw [← List.append_assoc]
      refine .stopped (hC pre hbegins) hblames fun hne us hus => ?_
      rw [List.append_assoc, hp, hsteady hne us hus]
      rfl

private theorem begins_stmt (room : Nat) : Begins (StmtWithin room) [] :=
  ⟨[⟨.semicolon, ⟨1, 1⟩⟩], .empty, .empty _⟩

/-- What opens a statement with an expression behind it begins a statement. -/
theorem closed_prompt {c : Category} {room : Nat} {e : Option LexError → Parser Expr}
    {make : Expr → Stmt} (he : Prompt e (Within room c))
    (hreads : ∀ cut, Reads (e cut) (Within room c)) (opening : List Lexeme)
    (hopening : ∀ l ∈ opening, l.token.InRange)
    (hmake : ∀ {d : Nat} {ts : List Token} {x : Expr}, Derives c d ts x →
      DerivesStmt d (opening.map Lexeme.token ++ (ts ++ [.semicolon])) (make x)) :
    Prompt (fun cut => closed cut (e cut) make)
      fun used s => StmtWithin room (opening ++ used) s := by
  refine (Prompt.followed (f := make) (t := .semicolon) rfl he hreads).mono ?_
  rintro _ _ ⟨us, x, _, rfl, hx, _, _, _, rfl, ⟨semi, rfl, hsemi⟩, rfl, rfl⟩
  rw [List.append_nil]
  exact hx.closed hsemi opening hopening hmake

private theorem required_prompt {p : Option LexError → StmtParser} {room : Nat}
    (hp : PromptStmt p (StmtWithin room)) :
    Prompt (fun cut => required cut (p cut)) (StmtWithin room) := by
  intro cut ts
  have hcourse := hp cut ts
  show Course (required none (p none)) _ cut ts (required cut (p cut) ts)
  unfold required
  generalize p cut ts = r at hcourse ⊢
  cases hcourse with
  | @found used rest s hsteady =>
      refine .read fun us hus => ?_
      rw [hsteady us hus]
      rfl
  | absent hsteady =>
      cases ts with
      | nil => exact .stays (begins_stmt room) (.ended _) fun l rest hl => by cases hl
      | cons l rest =>
          refine .stays (begins_stmt room) (.unexpected l rest) fun k us hk hus => ?_
          cases hk
          rw [hsteady _ hus]
          rfl
  | @stopped pre post why hbegins hblames hsteady =>
      refine .stopped hbegins hblames fun hne us hus => ?_
      rw [hsteady hne us hus]
      rfl

/-! ### Statements one after another -/

private theorem StmtWithin.ne_nil {room : Nat} {us : List Lexeme} {s : Stmt}
    (h : StmtWithin room us s) : us ≠ [] := by
  obtain ⟨d, -, hder, -⟩ := h
  intro hnil
  rw [hnil] at hder
  exact ne_nil_of_derivesStmt hder rfl

section Lists

variable {room : Nat} {p : StmtParser} (hnil : p [] = .ok none)
  (hreads : ReadsStmt p (StmtWithin room))
include hreads

/-- What is left behind a statement is shorter. -/
theorem length_lt_of_readsStmt {ts rest : List Lexeme} {s : Stmt}
    (h : p ts = .ok (some (s, rest))) : rest.length < ts.length := by
  obtain ⟨used, hused, hin⟩ := hreads h
  have hpos := List.length_pos_iff.mpr hin.ne_nil
  rw [← hused, List.length_append]
  omega

include hnil

/-- A bound that is not met changes nothing. -/
theorem statementsFrom_bound {bound : List Lexeme} : ∀ {bound' ts : List Lexeme},
    ts.length ≤ bound.length → ts.length ≤ bound'.length →
    statementsFrom p bound ts = statementsFrom p bound' ts := by
  have hend : ∀ bound : List Lexeme, statementsFrom p bound [] = .ok ([], []) := by
    intro bound
    cases bound with
    | nil => rfl
    | cons b bound =>
        rw [statementsFrom, hnil]
        rfl
  induction bound with
  | nil =>
      intro bound' ts hts _
      rw [List.length_eq_zero_iff.mp (Nat.le_zero.mp hts), hend, hend]
  | cons b bound ih =>
      intro bound' ts hts hts'
      cases bound' with
      | nil => rw [List.length_eq_zero_iff.mp (Nat.le_zero.mp hts'), hend, hend]
      | cons b' bound' =>
          rw [statementsFrom, statementsFrom]
          cases hp : p ts with
          | error why => rfl
          | ok found =>
              cases found with
              | none => rfl
              | some r =>
                  obtain ⟨s, rest⟩ := r
                  have hlt := length_lt_of_readsStmt hreads hp
                  rw [List.length_cons] at hts hts'
                  have hrest := @ih bound' rest (by omega) (by omega)
                  show (statementsFrom p bound rest >>= _) = statementsFrom p bound' rest >>= _
                  rw [hrest]

/-- A statement first, and then the others. -/
theorem statements_of_found {ts rest : List Lexeme} {s : Stmt}
    (h : p ts = .ok (some (s, rest))) :
    statements p ts = statements p rest >>= fun a => .ok (s :: a.1, a.2) := by
  have hlt := length_lt_of_readsStmt hreads h
  obtain ⟨t, ts, rfl⟩ := List.exists_cons_of_length_pos (Nat.zero_lt_of_lt hlt)
  rw [List.length_cons] at hlt
  unfold statements
  rw [statementsFrom, h]
  have hbound : statementsFrom p ts rest = statementsFrom p rest rest :=
    statementsFrom_bound hnil hreads (by omega) (Nat.le_refl _)
  rw [← hbound]
  rfl

omit hreads in
theorem statements_of_error {ts : List Lexeme} {why : ParseError} (h : p ts = .error why) :
    statements p ts = .error why := by
  cases ts with
  | nil =>
      rw [hnil] at h
      cases h
  | cons t ts =>
      unfold statements
      rw [statementsFrom, h]
      rfl

omit hnil hreads in
theorem statements_of_absent {ts : List Lexeme} (h : p ts = .ok none) :
    statements p ts = .ok ([], ts) := by
  cases ts with
  | nil => rfl
  | cons t ts =>
      unfold statements
      rw [statementsFrom, h]
      rfl

end Lists

section Bodies

variable {room : Nat} {body : Option LexError → StmtParser}
  (hbody : PromptStmt body (StmtWithin room))
  (hreads : ∀ cut, ReadsStmt (body cut) (StmtWithin room))
include hbody hreads

/-- **Statements one after another stop at the first token that cannot go on them.** -/
theorem statements_prompt (hnil : ∀ cut, body cut [] = .ok none) :
    Prompt (fun cut => statements (body cut)) (StmtsWithin room) := by
  intro cut ts
  show Course (statements (body none)) _ cut ts (statements (body cut) ts)
  induction hn : ts.length using Nat.strongRecOn generalizing ts with
  | ind n ih =>
      have hcourse := hbody cut ts
      cases hfirst : body cut ts with
      | error why =>
          rw [hfirst] at hcourse
          rw [statements_of_error (hnil cut) hfirst]
          cases hcourse with
          | @stopped pre post why hbegins hblames hsteady =>
              refine .stopped (hbegins.map fun ls s h => ⟨[s], ?_⟩) hblames fun hne us hus => ?_
              · have hall := h.cons .nil
                rw [List.append_nil] at hall
                exact hall
              · exact statements_of_error (hnil none) (hsteady hne us hus)
      | ok found =>
          rw [hfirst] at hcourse
          cases hcourse with
          | absent hsteady =>
              rw [statements_of_absent hfirst]
              exact .waits fun us hus => statements_of_absent (hsteady us hus)
          | @found used rest s hsteady =>
              have hlt := length_lt_of_readsStmt (hreads cut) hfirst
              obtain ⟨used', hused, hin⟩ := hreads cut hfirst
              obtain rfl : used' = used := List.append_cancel_right hused
              rw [statements_of_found (hnil cut) (hreads cut) hfirst]
              -- Behind the first statement the others are read, and it is put in front.
              have hothers := (ih rest.length (hn ▸ hlt) rest rfl).bind
                (j := fun ss ts => .ok (s :: ss, ts)) (k := fun ss ts => .ok (s :: ss, ts))
                (H := fun ss => IsAnswer (s :: ss))
                (fun ss after h => statementsFrom_reads (hreads cut) rest h)
                (fun ss after _ => prompt_pure _ cut after) fun ss => begins_isAnswer _
              refine hothers.after (fun us hus => ?_) fun pre hpre => hpre.map ?_
              · exact statements_of_found (hnil none) (hreads none) (hsteady us hus)
              · rintro ls _ ⟨vs, ss, _, hvs, hss, rfl, rfl⟩
                rw [List.append_nil] at hvs
                refine ⟨s :: ss, ?_⟩
                rw [List.append_assoc, hvs]
                exact hin.cons hss

private theorem block_prompt (hnil : ∀ cut, body cut [] = .ok none) {l : Lexeme}
    (hl : l.token = .leftBrace) (p : Position) :
    Prompt (fun cut => block cut (body cut) p)
      fun used s => StmtWithin (room + 1) (l :: used) s := by
  refine (Prompt.followed (f := Stmt.block) (t := .rightBrace) rfl
    (statements_prompt hbody hreads hnil)
    fun cut ts _ _ h => statementsFrom_reads (hreads cut) ts h).mono ?_
  rintro _ _ ⟨us, ss, _, rfl, hss, _, _, _, rfl, ⟨rb, rfl, hrb⟩, rfl, rfl⟩
  rw [List.append_nil]
  exact hss.block hl hrb

private theorem ifThen_prompt {c : Option LexError → Parser Expr}
    (hc : Prompt c (Within room .condition))
    (hcreads : ∀ cut, Reads (c cut) (Within room .condition))
    (hcsome : Begins (Within room .condition) []) {l : Lexeme} (hl : l.token = .ifWord)
    (p : Position) :
    Prompt (fun cut => ifThen cut (c cut) (body cut) p)
      fun used s => StmtWithin (room + 1) (l :: used) s := by
  -- From the body outwards: each part with all that comes behind it.
  have hthen := fun e => (required_prompt hbody).bind
    (k := fun _ b ts => .ok (Stmt.ifThen e b, ts)) (H := fun b => IsAnswer (.ifThen e b))
    (fun cut => required_reads (hreads cut)) (fun b => prompt_pure _) fun b => begins_isAnswer _
  have hthenSome := fun e => (begins_stmt room).then
    (H := fun b => IsAnswer (Stmt.ifThen e b)) fun b => begins_isAnswer _
  have hclose := fun e => (expect_prompt (t := .rightParen) rfl).bind
    (fun cut => expect_reads _) (fun _ => hthen e) fun _ => hthenSome e
  have hcloseSome := fun e => (begins_isKind (t := .rightParen) rfl).then fun _ => hthenSome e
  have hcondition := hc.bind hcreads hclose hcloseSome
  have hopen := (expect_prompt (t := .leftParen) rfl).bind (fun cut => expect_reads _)
    (fun _ => hcondition) fun _ => hcsome.then hcloseSome
  refine hopen.mono ?_
  rintro _ _ ⟨_, _, _, rfl, ⟨lp, rfl, hlp⟩, us, e, _, rfl, hus, _, _, _, rfl, ⟨rp, rfl, hrp⟩,
    vs, b, _, rfl, hvs, rfl, rfl⟩
  rw [List.append_nil]
  exact hvs.ifThen hus hl hlp hrp

end Bodies

/-! ### Programs -/

/-- A conditional or a block behind the token that opens it, which is to blame where there is no
room. -/
theorem opened_course {inner : Option LexError → Nat → Opened Stmt} {room : Nat} {p : StmtParser}
    {l : Lexeme} (hinner : ∀ r < room, Prompt (fun cut => inner cut r l.position)
      fun us s => StmtWithin (r + 1) (l :: us) s)
    (hp : ∀ us, p (l :: us) = some <$> opened (inner none) room l.position us)
    (cut : Option LexError) (rest : List Lexeme) :
    StmtCourse p (Begins (StmtWithin room)) cut (l :: rest)
      (some <$> opened (inner cut) room l.position rest) := by
  cases room with
  | zero =>
      refine @StmtCourse.stopped _ _ _ [] (l :: rest) _ (begins_stmt 0) (.tooDeep l rest) ?_
      intro _ us hus
      obtain ⟨us, rfl⟩ := hus.cons
      exact hp us
  | succ room =>
      exact @Course.found _ _ _ _ cut [l] rest _ (hinner room (Nat.lt_succ_self room) cut rest) hp
        fun pre hpre => hpre.map fun ls s h => ⟨s, h⟩

private theorem closed_course {c : Category} {room : Nat} {e : Option LexError → Parser Expr}
    {make : Expr → Stmt} {p : StmtParser} (he : Prompt e (Within room c))
    (hreads : ∀ cut, Reads (e cut) (Within room c)) (opening : List Lexeme)
    (hopening : ∀ l ∈ opening, l.token.InRange)
    (hmake : ∀ {d : Nat} {ts : List Token} {x : Expr}, Derives c d ts x →
      DerivesStmt d (opening.map Lexeme.token ++ (ts ++ [.semicolon])) (make x))
    (hp : ∀ us, p (opening ++ us) = some <$> closed none (e none) make us)
    (cut : Option LexError) (rest : List Lexeme) :
    StmtCourse p (Begins (StmtWithin room)) cut (opening ++ rest)
      (some <$> closed cut (e cut) make rest) := by
  refine (closed_prompt he hreads opening hopening hmake cut rest).found hp fun pre hpre => ?_
  refine hpre.map fun ls s h => ⟨s, ?_⟩
  rw [List.append_assoc]
  exact h

/-- A name begins an assignment. -/
theorem begins_assign (room : Nat) (x : String) (p : Position) :
    Begins (StmtWithin room) [⟨.identifier x, p⟩] := by
  have hsum : Within room .sum [⟨.identifier x, p⟩] (.var x) :=
    ((within_name room x p).mono .factor).mono .term
  have hsemi : (Lexeme.mk .semicolon p).token.kind = .semicolon := rfl
  have hall := hsum.closed hsemi [⟨.identifier x, p⟩, ⟨.assign, p⟩] (by simp [Token.InRange])
    (.assign x)
  exact ⟨_, _, hall⟩

/-- **A statement stops at the first token that cannot go on it.** -/
theorem statement_prompt (room : Nat) :
    PromptStmt (fun cut => statement cut room) (StmtWithin room) := by
  induction room using Nat.strongRecOn with
  | ind room ih =>
      have hreads : ∀ room cut, ReadsStmt (statement cut room) (StmtWithin room) :=
        fun room cut => statement_reads room
      intro cut ts
      show StmtCourse (statement none room) _ cut ts (statement cut room ts)
      rw [statement_eq, statement_eq]
      cases ts with
      | nil =>
          refine .absent fun us hus => ?_
          rw [List.head?_eq_none_iff.mp hus.1]
          rfl
      | cons l rest =>
          obtain ⟨t, p⟩ := l
          cases t with
          | printWord =>
              exact closed_course (shown_prompt room) (fun cut => shown_reads room)
                [⟨.printWord, p⟩] (by simp [Token.InRange]) .print (fun us => rfl) cut rest
          | identifier x =>
              cases rest with
              | nil =>
                  cases cut with
                  | none =>
                      refine .absent fun us hus => ?_
                      obtain ⟨us, rfl, hend⟩ := hus.name rfl (Or.inr rfl)
                      rw [List.head?_eq_none_iff.mp hend]
                      rfl
                  | some why =>
                      exact @StmtCourse.stopped _ _ _ [⟨.identifier x, p⟩] [] _
                        (begins_assign room x p) (.ended .statement) fun hne => absurd rfl hne
              | cons m rest =>
                  obtain ⟨t, q⟩ := m
                  cases t with
                  | assign =>
                      exact closed_course (sum_prompt room) (fun cut => sum_reads room)
                        [⟨.identifier x, p⟩, ⟨.assign, q⟩] (by simp [Token.InRange]) (.assign x)
                        (fun us => rfl) cut rest
                  | _ =>
                      refine .absent fun us hus => ?_
                      obtain ⟨us, rfl, hnext⟩ := hus.name rfl (Or.inl (List.cons_ne_nil _ _))
                      obtain ⟨us, rfl⟩ := List.head?_eq_some_iff.mp hnext
                      rfl
          | semicolon => exact @StmtCourse.found _ _ cut [⟨.semicolon, p⟩] rest _ fun us _ => rfl
          | ifWord =>
              refine @opened_course (fun cut r => ifThen cut (condition cut r) (statement cut r))
                room _ ⟨.ifWord, p⟩ (fun r hr => ?_) (fun us => rfl) cut rest
              exact ifThen_prompt (ih r hr) (hreads r) (condition_prompt r)
                (fun cut => condition_reads r) (begins_condition r) rfl p
          | leftBrace =>
              refine @opened_course (fun cut r => block cut (statement cut r))
                room _ ⟨.leftBrace, p⟩ (fun r hr => ?_) (fun us => rfl) cut rest
              exact block_prompt (ih r hr) (hreads r) (fun cut => statement_nil r) rfl p
          | _ =>
              refine .absent fun us hus => ?_
              obtain ⟨us, rfl⟩ := hus.cons
              rfl

end LoopFree.Parser
