/-
Derivations that nest too deep.

Completeness says what becomes of a derivation for which there is room.  Where there is
not, the parser stops at a level too many and says so, and nothing else: what stands in
front of that level is read, and what stands behind it is never looked at.  So the error
is the same whatever follows, and every parser around hands it on.
-/
import LoopFree.Proofs.Syntax.Completeness

namespace LoopFree.Parser

open Grammar

variable {cut : Option LexError}

/-- The parser stops within the tokens at a level of nesting too many. -/
def Overflows {α : Type} (p : List Lexeme → Except ParseError α) (ls : List Lexeme) : Prop :=
  ∀ rest, ∃ position, p (ls ++ rest) = .error (.tooDeep position)

/-! ### Handing the error on

The level too many is deep inside, and every parser on the way out could still do something about
the error: try something else, or report another one.  None does, and that is shown once for each
way of putting parsers together.
-/

section Handing

variable {α β : Type} {us vs : List Lexeme}

private theorem Overflows.append {p : List Lexeme → Except ParseError α} (h : Overflows p us)
    (vs : List Lexeme) : Overflows p (us ++ vs) := by
  intro rest
  rw [List.append_assoc]
  exact h (vs ++ rest)

theorem Overflows.bind {p : List Lexeme → Except ParseError α} (h : Overflows p us)
    (f : α → Except ParseError β) : Overflows (fun ts => p ts >>= f) us := by
  intro rest
  obtain ⟨position, hp⟩ := h rest
  refine ⟨position, ?_⟩
  simp only [hp]
  rfl

end Handing

section Chains

variable {joins : Joins} {part : Parser Expr} {us vs : List Lexeme} {t : Lexeme} {l : Expr}
  {join : Expr → Expr → Expr}

private theorem Overflows.chain (h : Overflows part us) : Overflows (chain joins part) us :=
  h.bind _

private theorem Overflows.joinedOnce (h : Overflows part us) :
    Overflows (joinedOnce joins part) us :=
  h.bind _

private theorem chainFrom_overflows (ht : joins t.token = some join) (h : Overflows part vs)
    (b : Lexeme) (bound : List Lexeme) :
    Overflows (chainFrom joins part (b :: bound) l) (t :: vs) := by
  intro rest
  obtain ⟨position, hpart⟩ := h rest
  refine ⟨position, ?_⟩
  simp only [List.cons_append, chainFrom, ht, hpart]
  rfl

private theorem Overflows.chain_right {F : List Lexeme → Prop} (hl : Loops joins part F us l)
    (ht : joins t.token = some join) (hop : ∀ rest, F (t :: rest)) (h : Overflows part vs) :
    Overflows (Parser.chain joins part) (us ++ t :: vs) := by
  intro rest
  obtain ⟨bound, hbound, hchain⟩ := hl (t :: (vs ++ rest)) (hop _)
  cases bound with
  | nil => simp at hbound
  | cons b bound =>
      rw [List.append_assoc, List.cons_append, hchain]
      exact chainFrom_overflows ht h b bound rest

private theorem Overflows.joinedOnce_right {F : List Lexeme → Prop} (hl : Takes part F us l)
    (ht : joins t.token = some join) (hop : ∀ rest, F (t :: rest)) (h : Overflows part vs) :
    Overflows (Parser.joinedOnce joins part) (us ++ t :: vs) := by
  intro rest
  obtain ⟨position, hright⟩ := chainFrom_overflows (l := l) ht h t [] rest
  refine ⟨position, ?_⟩
  rw [List.append_assoc, List.cons_append]
  simp only [Parser.joinedOnce, hl _ (hop (vs ++ rest))]
  exact hright

section Operands

variable {room d d' : Nat} {F : List Lexeme → Prop} (hlt : room < max d d')
  (ht : joins t.token = some join) (hop : ∀ rest, F (t :: rest))
include hlt ht hop

/-- One of the two operands nests too deep, and where the left one does not it is read. -/
theorem overflows_chain (hdeep : room < d → Overflows (Parser.chain joins part) us)
    (hread : d ≤ room → Loops joins part F us l) (hright : room < d' → Overflows part vs) :
    Overflows (Parser.chain joins part) (us ++ t :: vs) := by
  by_cases hleft : room < d
  · exact (hdeep hleft).append (t :: vs)
  · exact .chain_right (hread (by omega)) ht hop (hright (by omega))

private theorem overflows_joinedOnce (hdeep : room < d → Overflows part us)
    (hread : d ≤ room → Takes part F us l) (hright : room < d' → Overflows part vs) :
    Overflows (Parser.joinedOnce joins part) (us ++ t :: vs) := by
  by_cases hleft : room < d
  · exact (hdeep hleft).joinedOnce.append (t :: vs)
  · exact .joinedOnce_right (hread (by omega)) ht hop (hright (by omega))

end Operands

end Chains

/-! ### Expressions -/

/-- The parser of a category. -/
def reader (cut : Option LexError) (room : Nat) : Category → Parser Expr
  | .operand => operand cut (group cut (sum cut) room)
  | .product => chain productJoins (operand cut (group cut (sum cut) room))
  | .sum => sumOver cut (group cut (sum cut) room)
  | .shown => joinedOnce compareJoins (sum cut room)
  | .truth => truth cut (group cut (condition cut) room)
  | .test => joinedOnce compareJoins (truth cut (group cut (condition cut) room))
  | .condition => conditionOver cut (group cut (condition cut) room)

private theorem reader_sum (room : Nat) : reader cut room .sum = sum cut room :=
  (sum_eq room).symm

private theorem reader_condition (room : Nat) : reader cut room .condition = condition cut room :=
  (condition_eq room).symm

/-- Without room a group stops at its start, and else where its inside does. -/
theorem group_overflows {inner : Nat → Parser Expr} {room : Nat} {us : List Lexeme}
    (h : ∀ r, room = r + 1 → Overflows (inner r) us) (p : Position) (vs : List Lexeme) :
    Overflows (group cut inner room p) (us ++ vs) := by
  cases room with
  | zero => exact fun _ => ⟨p, rfl⟩
  | succ r => exact ((h r rfl).bind _).append vs

theorem Fits.within {R room d : Nat} {ts : List Token} {ls : List Lexeme} (h : Fits R d ts ls)
    (hd : d ≤ room) : Fits room d ts ls :=
  ⟨hd, h.tokens, h.inRange⟩

/-- Tokens between an opening one and a closing one. -/
theorem Fits.enclosed {R d : Nat} {t t' : Token} {ts : List Token} {ls : List Lexeme}
    (h : Fits R (d + 1) (t :: (ts ++ [t'])) ls) :
    ∃ l us r, ls = l :: (us ++ [r]) ∧ l.token = t ∧ r.token = t' ∧ Fits R d ts us := by
  obtain ⟨l, us, r, room, rfl, hl, hr, rfl, hus⟩ := h.group
  exact ⟨l, us, r, rfl, hl, hr, hus.within (Nat.le_succ_of_le hus.depth)⟩

/-- **A derivation that nests too deep is stopped for that.** -/
theorem overflows_of_derives {c : Category} {d : Nat} {ts : List Token} {e : Expr}
    (h : Derives c d ts e) : ∀ {R room : Nat} {ls : List Lexeme}, Fits R d ts ls → room < d →
      Overflows (reader cut room c) ls := by
  induction h with
  | name | integer | float | trueWord | falseWord =>
      intro R room ls _ hlt
      exact absurd hlt (Nat.not_lt_zero _)
  | sumGroup h ih =>
      intro R room ls hfits hlt
      obtain ⟨⟨t, p⟩, us, rp, rfl, rfl, -, hus⟩ := hfits.enclosed
      exact group_overflows (fun r hr => reader_sum r ▸ ih hus (by omega)) p [rp]
  | conditionGroup h ih =>
      intro R room ls hfits hlt
      obtain ⟨⟨t, p⟩, us, rp, rfl, rfl, -, hus⟩ := hfits.enclosed
      exact group_overflows (fun r hr => reader_condition r ▸ ih hus (by omega)) p [rp]
  | factor h ih =>
      intro R room ls hfits hlt
      exact (ih hfits hlt).chain
  | scaled hop hl hr ihl ihr =>
      intro R room ls hfits hlt
      obtain ⟨us, t, vs, rfl, ht, hus, hvs⟩ := hfits.join
      have hjoin := productJoins_token hop
      rw [← ht] at hjoin
      exact overflows_chain hlt hjoin (fun _ => trivial) (ihl hus)
        (fun hd => complete_of_derives hl (hus.within hd)) (ihr hvs)
  | term h ih =>
      intro R room ls hfits hlt
      exact (ih hfits hlt).chain
  | added hop hl hr ihl ihr =>
      intro R room ls hfits hlt
      obtain ⟨us, t, vs, rfl, ht, hus, hvs⟩ := hfits.join
      obtain ⟨hjoin, hends⟩ := sumJoins_token hop
      rw [← ht] at hjoin hends
      exact overflows_chain hlt hjoin (fun _ => ⟨trivial, .cons hends⟩) (ihl hus)
        (fun hd => complete_of_derives hl (hus.within hd)) (ihr hvs)
  | value h ih =>
      intro R room ls hfits hlt
      have hsum := ih hfits hlt
      rw [reader_sum] at hsum
      exact hsum.joinedOnce
  | valuesCompared op hl hr ihl ihr =>
      intro R room ls hfits hlt
      obtain ⟨us, t, vs, rfl, ht, hus, hvs⟩ := hfits.join
      obtain ⟨hjoin, hproduct, hsum⟩ := compareJoins_token op
      rw [← ht] at hjoin hproduct hsum
      have hread : _ ≤ room → Complete cut room us _ .sum :=
        fun hd => complete_of_derives hl (hus.within hd)
      exact overflows_joinedOnce hlt hjoin (fun _ => ⟨⟨trivial, .cons hproduct⟩, .cons hsum⟩)
        (fun hd => reader_sum room ▸ ihl hus hd) (fun hd => (hread hd).sum_takes)
        (fun hd => reader_sum room ▸ ihr hvs hd)
  | alone h ih =>
      intro R room ls hfits hlt
      exact (ih hfits hlt).joinedOnce
  | truthsCompared op hl hr ihl ihr =>
      intro R room ls hfits hlt
      obtain ⟨us, t, vs, rfl, ht, hus, hvs⟩ := hfits.join
      have hjoin := (compareJoins_token op).1
      rw [← ht] at hjoin
      exact overflows_joinedOnce hlt hjoin (fun _ => trivial) (ihl hus)
        (fun hd => complete_of_derives hl (hus.within hd)) (ihr hvs)
  | tested h ih =>
      intro R room ls hfits hlt
      exact (ih hfits hlt).chain
  | connected op hl hr ihl ihr =>
      intro R room ls hfits hlt
      obtain ⟨us, t, vs, rfl, ht, hus, hvs⟩ := hfits.join
      obtain ⟨hjoin, hends⟩ := logicJoins_token op
      rw [← ht] at hjoin hends
      exact overflows_chain hlt hjoin (fun _ => ⟨trivial, .cons hends⟩) (ihl hus)
        (fun hd => complete_of_derives hl (hus.within hd)) (ihr hvs)

/-! ### Statements -/

private theorem Overflows.some {α : Type} {p : List Lexeme → Except ParseError α} {us : List Lexeme}
    (h : Overflows p us) : Overflows (fun ts => some <$> p ts) us := by
  intro rest
  obtain ⟨position, hp⟩ := h rest
  refine ⟨position, ?_⟩
  simp only [hp]
  rfl

private theorem Overflows.closed {e : Parser Expr} {make : Expr → Stmt} {us : List Lexeme}
    (h : Overflows e us) (semi : Lexeme) : Overflows (closed cut e make) (us ++ [semi]) :=
  (h.bind _).append [semi]

private theorem Overflows.required {p : StmtParser} {us : List Lexeme} (h : Overflows p us) :
    Overflows (required cut p) us := by
  intro rest
  obtain ⟨position, hp⟩ := h rest
  refine ⟨position, ?_⟩
  simp only [Parser.required, hp]
  rfl

section Conditionals

variable {c : Parser Expr} {body : StmtParser} {us vs : List Lexeme} {lp rp : Lexeme}
  (hlp : lp.token = .leftParen)
include hlp

private theorem ifThen_overflows_condition (h : Overflows c us) (p : Position) (ms : List Lexeme) :
    Overflows (ifThen cut c body p) (lp :: (us ++ ms)) := by
  intro rest
  have hopen : expect cut .leftParen (lp :: (us ++ (ms ++ rest))) = .ok ((), us ++ (ms ++ rest)) :=
    expect_eq (by rw [hlp]; rfl) _
  obtain ⟨position, hcond⟩ := h (ms ++ rest)
  refine ⟨position, ?_⟩
  simp only [ifThen, List.cons_append, List.append_assoc, bind, Except.bind, hopen, hcond]

private theorem ifThen_overflows_body {F : List Lexeme → Prop} {e : Expr} (hc : Takes c F us e)
    (hrp : rp.token = .rightParen) (hF : ∀ rest, F (rp :: rest)) (h : Overflows body vs)
    (p : Position) : Overflows (ifThen cut c body p) (lp :: (us ++ rp :: vs)) := by
  intro rest
  have hopen : expect cut .leftParen (lp :: (us ++ (rp :: (vs ++ rest))))
      = .ok ((), us ++ (rp :: (vs ++ rest))) := expect_eq (by rw [hlp]; rfl) _
  have hcond := hc (rp :: (vs ++ rest)) (hF _)
  have hclose : expect cut .rightParen (rp :: (vs ++ rest)) = .ok ((), vs ++ rest) :=
    expect_eq (by rw [hrp]; rfl) _
  have hrequired : Overflows (required cut body) vs := h.required
  obtain ⟨position, hbody⟩ := hrequired rest
  refine ⟨position, ?_⟩
  simp only [ifThen, List.cons_append, List.append_assoc, bind, Except.bind, hopen, hcond, hclose,
    hbody]

end Conditionals

private theorem opened_overflows {inner : Nat → Opened Stmt} {room : Nat} {us : List Lexeme}
    {p : Position} (h : ∀ r, room = r + 1 → Overflows (inner r p) us) :
    Overflows (opened inner room p) us := by
  cases room with
  | zero => exact fun _ => ⟨p, rfl⟩
  | succ r => exact h r rfl

private theorem block_overflows {body : StmtParser} {us : List Lexeme}
    (h : ∀ rest, Overflows (statementsFrom body (us ++ rest)) us) (rb : Lexeme) (p : Position) :
    Overflows (block cut body p) (us ++ [rb]) := by
  intro rest
  obtain ⟨position, hstatements⟩ := h ([rb] ++ rest) ([rb] ++ rest)
  refine ⟨position, ?_⟩
  rw [List.append_assoc]
  simp only [block, statements, hstatements]
  rfl

mutual

/-- **A statement that nests too deep is stopped for that.** -/
theorem overflows_of_derivesStmt {d : Nat} {ts : List Token} {s : Stmt} :
    DerivesStmt d ts s → ∀ {R room : Nat} {ls : List Lexeme}, Fits R d ts ls → room < d →
      Overflows (statement cut room) ls
  | .empty, R, room, ls, _, hlt => absurd hlt (Nat.not_lt_zero _)
  | .assign x h, R, room, ls, hfits, hlt => by
      obtain ⟨⟨t, p⟩, us, rfl, rfl, hus⟩ := hfits.cons
      obtain ⟨⟨t, q⟩, vs, rfl, rfl, hvs⟩ := hus.cons
      obtain ⟨ws, semi, rfl, hsemi, hws⟩ := hvs.last
      have hsum : Overflows (reader cut room .sum) ws := overflows_of_derives h hws hlt
      rw [reader_sum] at hsum
      rw [statement_eq]
      exact (hsum.closed semi).some
  | .print h, R, room, ls, hfits, hlt => by
      obtain ⟨⟨t, p⟩, us, rfl, rfl, hus⟩ := hfits.cons
      obtain ⟨ws, semi, rfl, hsemi, hws⟩ := hus.last
      have hshown : Overflows (reader cut room .shown) ws := overflows_of_derives h hws hlt
      rw [statement_eq]
      exact (Overflows.closed hshown semi).some
  | @DerivesStmt.ifThen d₁ d₂ _ _ _ _ hc hbody, R, room, ls, hfits, hlt => by
      obtain ⟨⟨t, p⟩, us, rfl, rfl, hus⟩ := hfits.cons
      obtain ⟨lp, vs, rfl, hlp, hvs⟩ := hus.cons
      obtain ⟨cs, rp, bs, rfl, hrp, hcs, hbs⟩ := (hvs.mono (Nat.le_succ _)).join
      rw [statement_eq]
      refine (opened_overflows fun r hr => ?_).some
      by_cases hdeep : r < d₁
      · have hcond : Overflows (reader cut r .condition) cs := overflows_of_derives hc hcs hdeep
        rw [reader_condition] at hcond
        exact ifThen_overflows_condition hlp hcond p (rp :: bs)
      · have hread : Complete cut r cs _ .condition :=
          complete_of_derives hc (hcs.within (by omega))
        exact ifThen_overflows_body hlp hread.condition_takes hrp
          (fun rest => ⟨⟨trivial, .cons (by rw [hrp]; rfl)⟩, .cons (by rw [hrp]; rfl)⟩)
          (overflows_of_derivesStmt hbody hbs (by omega)) p
  | .block h, R, room, ls, hfits, hlt => by
      obtain ⟨⟨t, p⟩, us, rb, rfl, rfl, hrb, hus⟩ := hfits.enclosed
      rw [statement_eq]
      refine (opened_overflows fun r hr => block_overflows (fun rest => ?_) rb p).some
      exact overflows_of_derivesStmts h hus (by omega) _ (by simp)

theorem overflows_of_derivesStmts {d : Nat} {ts : List Token} {ss : List Stmt} :
    DerivesStmts d ts ss → ∀ {R room : Nat} {ls : List Lexeme}, Fits R d ts ls → room < d →
      ∀ bound : List Lexeme, ls.length ≤ bound.length →
        Overflows (statementsFrom (statement cut room) bound) ls
  | .nil, R, room, ls, _, hlt, bound, _ => absurd hlt (Nat.not_lt_zero _)
  | @DerivesStmts.cons d₁ d₂ _ _ _ _ h hmore, R, room, ls, hfits, hlt, bound, hbound => by
      obtain ⟨us, vs, rfl, hus, hvs⟩ := hfits.append
      have hus := hus.mono (Nat.le_max_left d₁ d₂)
      have hvs := hvs.mono (Nat.le_max_right d₁ d₂)
      have hpos : 0 < us.length := by
        rw [← List.length_map Lexeme.token, hus.tokens]
        exact List.length_pos_iff.mpr (ne_nil_of_derivesStmt h)
      rw [List.length_append] at hbound
      cases bound with
      | nil =>
          rw [List.length_nil] at hbound
          omega
      | cons b bound =>
          rw [List.length_cons] at hbound
          by_cases hdeep : room < d₁
          · intro rest
            obtain ⟨position, hfirst⟩ := overflows_of_derivesStmt h hus hdeep (vs ++ rest)
            refine ⟨position, ?_⟩
            simp only [List.append_assoc, statementsFrom, bind, Except.bind, hfirst]
          · have hfirst : TakesStmt (statement cut room) us _ :=
              takes_of_derivesStmt h (hus.within (by omega))
            intro rest
            obtain ⟨position, hothers⟩ := overflows_of_derivesStmts hmore hvs
              (by omega : room < d₂) bound (by omega) rest
            refine ⟨position, ?_⟩
            simp only [List.append_assoc, statementsFrom, bind, Except.bind, hfirst (vs ++ rest),
              hothers]

end

/-- **A program that nests too deep is refused for that**, at one of its tokens. -/
theorem program_of_tooDeep {d R : Nat} {ts : List Token} {p : Program} {ls : List Lexeme}
    (h : DerivesStmts d ts p) (hfits : Fits R d ts ls) (hd : maxNesting < d) :
    ∃ position, program none ls = .error (.tooDeep position) := by
  have hover : Overflows (statementsFrom (statement none maxNesting) ls) ls :=
    overflows_of_derivesStmts h hfits hd ls (Nat.le_refl _)
  obtain ⟨position, hstatements⟩ := hover []
  rw [List.append_nil] at hstatements
  refine ⟨position, ?_⟩
  simp only [program, statements, hstatements]
  rfl

end LoopFree.Parser
