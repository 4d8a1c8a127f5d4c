/-
What the grammar derives is read.

`Takes p F ls x` says that the parser `p` reads the tokens `ls` as `x` whatever follows
them, so long as `F` holds of what follows.  A chain of operators needs more than that:
its production repeats on the left, and what stands to the left of an operator has not
been read as a chain of its own but leaves the loop in the middle.  `Loops` says so, and
the induction over a derivation keeps it for the three categories that are chains.  The
bound of a loop is never met, since every round gives up one token of it and takes one
token off the text.
-/
import LoopFree.Proofs.Syntax.Grammar
import LoopFree.Syntax.Parser

namespace LoopFree.Parser

open Grammar

variable {cut : Option LexError}

/-- What follows does not start with an operator of the table. -/
def Ends (joins : Joins) (rest : List Lexeme) : Prop :=
  ∀ l ∈ rest.head?, joins l.token = none

theorem Ends.cons {joins : Joins} {l : Lexeme} {rest : List Lexeme}
    (h : joins l.token = none) : Ends joins (l :: rest) := by
  intro k hk
  rw [List.head?_cons, Option.mem_some_iff] at hk
  rw [← hk]
  exact h

/-- The parser reads the tokens as `x` in front of anything of which `F` holds. -/
def Takes {α : Type} (p : Parser α) (F : List Lexeme → Prop) (ls : List Lexeme) (x : α) : Prop :=
  ∀ rest, F rest → p (ls ++ rest) = .ok (x, rest)

/-! ### Chains of operators

A chain is derived from its last operator inward and read from its first one outward.  So the
induction meets the left part of a chain while the loop has still to go on, and what it needs to
know of it is not that it is read, but that the loop comes to stand behind it.
-/

section Chains

variable {joins : Joins} {part : Parser Expr} {F : List Lexeme → Prop}

/-- The chain has read the tokens as its left part and is about to go on behind them. -/
def Loops (joins : Joins) (part : Parser Expr) (F : List Lexeme → Prop) (ls : List Lexeme)
    (e : Expr) : Prop :=
  ∀ rest, F rest → ∃ bound, rest.length ≤ bound.length ∧
    chain joins part (ls ++ rest) = chainFrom joins part bound e rest

/-- The loop stops in front of what is no operator of its own, however far its bound. -/
theorem chainFrom_of_ends {rest : List Lexeme} (h : Ends joins rest) (bound : List Lexeme)
    (left : Expr) : chainFrom joins part bound left rest = .ok (left, rest) := by
  cases bound with
  | nil => rw [chainFrom.eq_def]
  | cons b bound =>
      cases rest with
      | nil => rfl
      | cons l rest =>
          have hl : joins l.token = none := h l (by simp)
          simp only [chainFrom, hl]

/-- One round: an operator and a part that is read behind it. -/
theorem chainFrom_step {b t : Lexeme} {bound ts mid : List Lexeme} {left right : Expr}
    {join : Expr → Expr → Expr} (ht : joins t.token = some join)
    (hpart : part ts = .ok (right, mid)) :
    chainFrom joins part (b :: bound) left (t :: ts)
      = chainFrom joins part bound (join left right) mid := by
  simp only [chainFrom, ht, hpart]
  rfl

private theorem Loops.one {ls : List Lexeme} {e : Expr} (h : Takes part F ls e) :
    Loops joins part F ls e := by
  intro rest hrest
  refine ⟨rest, Nat.le_refl _, ?_⟩
  simp only [chain, h rest hrest]
  rfl

private theorem Loops.more {ls ls' : List Lexeme} {t : Lexeme} {l r : Expr}
    {join : Expr → Expr → Expr} (hl : Loops joins part F ls l) (ht : joins t.token = some join)
    (hop : ∀ rest, F (t :: rest)) (hr : Takes part F ls' r) :
    Loops joins part F (ls ++ t :: ls') (join l r) := by
  intro rest hrest
  obtain ⟨bound, hbound, hchain⟩ := hl (t :: (ls' ++ rest)) (hop _)
  cases bound with
  | nil => simp at hbound
  | cons b bound =>
      refine ⟨bound, ?_, ?_⟩
      · simp only [List.length_cons, List.length_append] at hbound
        omega
      · rw [List.append_assoc, List.cons_append, hchain, chainFrom_step ht (hr rest hrest)]

/-- A chain ends where no operator of its own goes on. -/
theorem Loops.takes {ls : List Lexeme} {e : Expr} (h : Loops joins part F ls e) :
    Takes (chain joins part) (fun rest => F rest ∧ Ends joins rest) ls e := by
  intro rest ⟨hF, hends⟩
  obtain ⟨bound, -, hchain⟩ := h rest hF
  rw [hchain, chainFrom_of_ends hends]

private theorem Takes.alone {ls : List Lexeme} {e : Expr} (h : Takes part F ls e) :
    Takes (joinedOnce joins part) (fun rest => F rest ∧ Ends joins rest) ls e := by
  intro rest ⟨hF, hends⟩
  simp only [joinedOnce, h rest hF]
  exact chainFrom_of_ends hends _ e

private theorem Takes.joined {ls ls' : List Lexeme} {t : Lexeme} {l r : Expr}
    {join : Expr → Expr → Expr} (hl : Takes part F ls l) (ht : joins t.token = some join)
    (hop : ∀ rest, F (t :: rest)) (hr : Takes part F ls' r) :
    Takes (joinedOnce joins part) F (ls ++ t :: ls') (join l r) := by
  intro rest hrest
  have hright := hr rest hrest
  rw [List.append_assoc, List.cons_append]
  simp only [joinedOnce, hl _ (hop (ls' ++ rest))]
  show chainFrom joins part [t] l (t :: (ls' ++ rest)) = _
  rw [chainFrom_step ht hright, chainFrom.eq_def]

theorem Takes.mono {α : Type} {p : Parser α} {F G : List Lexeme → Prop} {ls : List Lexeme}
    {x : α} (h : Takes p F ls x) (hGF : ∀ rest, G rest → F rest) : Takes p G ls x :=
  fun rest hrest => h rest (hGF rest hrest)

end Chains

/-! ### Expressions

What is read as an expression depends on what follows, for an operator behind it might have gone
on it.  Each category has its own operators that must not follow, and parentheses end that
dependence.
-/

/-- What parentheses hold, one level of nesting further in. -/
def group (cut : Option LexError) (inner : Nat → Parser Expr) : Nat → Opened Expr
  | 0 => noRoom
  | room + 1 => parenthesized cut (inner room)

theorem sum_eq (room : Nat) : sum cut room = sumOver cut (group cut (sum cut) room) := by
  cases room <;> rfl

theorem condition_eq (room : Nat) :
    condition cut room = conditionOver cut (group cut (condition cut) room) := by
  cases room <;> rfl

theorem expect_eq {l : Lexeme} {k : TokenKind} (h : l.token.kind = k) (rest : List Lexeme) :
    expect cut k (l :: rest) = .ok ((), rest) := by
  rw [expect, if_pos h]

private theorem group_takes {inner : Nat → Parser Expr} {F : List Lexeme → Prop} {room : Nat}
    {us : List Lexeme} {rp : Lexeme} {e : Expr} (h : Takes (inner room) F us e)
    (hrp : rp.token = .rightParen) (hF : ∀ rest, F (rp :: rest)) (p : Position)
    (rest : List Lexeme) :
    group cut inner (room + 1) p (us ++ [rp] ++ rest) = .ok (e, rest) := by
  have hinner := h (rp :: rest) (hF rest)
  have hclose : expect cut .rightParen (rp :: rest) = .ok ((), rest) :=
    expect_eq (by rw [hrp]; rfl) rest
  simp only [group, parenthesized, List.append_assoc, List.singleton_append, hinner]
  show (expect cut .rightParen (rp :: rest) >>= fun x => pure (e, x.2)) = _
  rw [hclose]
  rfl

theorem intOfLiteral?_of_inRange {s : String} (h : (Token.integer s).InRange) :
    intOfLiteral? s = some (Int64.ofNat (digitsValue s.toList)) := by
  unfold intOfLiteral?
  exact if_pos h

/-- How the tokens of a derivation are read, category by category. -/
def Complete (cut : Option LexError) (room : Nat) (ls : List Lexeme) (e : Expr) :
    Category → Prop
  | .operand => Takes (operand cut (group cut (sum cut) room)) (fun _ => True) ls e
  | .product =>
      Loops productJoins (operand cut (group cut (sum cut) room)) (fun _ => True) ls e
  | .sum =>
      Loops sumJoins (chain productJoins (operand cut (group cut (sum cut) room)))
        (fun rest => True ∧ Ends productJoins rest) ls e
  | .shown =>
      Takes (joinedOnce compareJoins (sum cut room)) (fun rest =>
        ((True ∧ Ends productJoins rest) ∧ Ends sumJoins rest) ∧ Ends compareJoins rest) ls e
  | .truth => Takes (truth cut (group cut (condition cut) room)) (fun _ => True) ls e
  | .test =>
      Takes (joinedOnce compareJoins (truth cut (group cut (condition cut) room)))
        (fun rest => True ∧ Ends compareJoins rest) ls e
  | .condition =>
      Loops logicJoins (joinedOnce compareJoins (truth cut (group cut (condition cut) room)))
        (fun rest => True ∧ Ends compareJoins rest) ls e

theorem Complete.sum_takes {room : Nat} {ls : List Lexeme} {e : Expr}
    (h : Complete cut room ls e .sum) :
    Takes (sum cut room)
      (fun rest => (True ∧ Ends productJoins rest) ∧ Ends sumJoins rest) ls e := by
  rw [sum_eq]
  exact Loops.takes h

theorem Complete.condition_takes {room : Nat} {ls : List Lexeme} {e : Expr}
    (h : Complete cut room ls e .condition) :
    Takes (condition cut room)
      (fun rest => (True ∧ Ends compareJoins rest) ∧ Ends logicJoins rest) ls e := by
  rw [condition_eq]
  exact Loops.takes h

theorem productJoins_token {op : ArithOp} (h : op = .mul ∨ op = .div) :
    productJoins op.token = some (.arith op) := by
  rcases h with rfl | rfl <;> rfl

theorem sumJoins_token {op : ArithOp} (h : op = .add ∨ op = .sub) :
    sumJoins op.token = some (.arith op) ∧ productJoins op.token = none := by
  rcases h with rfl | rfl <;> exact ⟨rfl, rfl⟩

theorem logicJoins_token (op : LogicOp) :
    logicJoins op.token = some (.logic op) ∧ compareJoins op.token = none := by
  cases op <;> exact ⟨rfl, rfl⟩

theorem compareJoins_token (op : CompareOp) :
    compareJoins op.token = some (.compare op) ∧ productJoins op.token = none ∧
      sumJoins op.token = none := by
  cases op <;> exact ⟨rfl, rfl, rfl⟩

/-- The tokens are those of a derivation for which there is room, with integers in range. -/
structure Fits (room d : Nat) (ts : List Token) (ls : List Lexeme) : Prop where
  depth : d ≤ room
  tokens : ls.map Lexeme.token = ts
  inRange : ∀ l ∈ ls, l.token.InRange

section Fits

variable {room d d' : Nat} {t t' : Token} {ts ts' : List Token} {ls : List Lexeme}

theorem Fits.mono (h : Fits room d ts ls) (hd : d' ≤ d) : Fits room d' ts ls :=
  ⟨Nat.le_trans hd h.depth, h.tokens, h.inRange⟩

theorem Fits.cons (h : Fits room d (t :: ts) ls) :
    ∃ l us, ls = l :: us ∧ l.token = t ∧ Fits room d ts us := by
  obtain ⟨hroom, hls, hrange⟩ := h
  obtain ⟨l, us, rfl, hl, hus⟩ := List.map_eq_cons_iff.mp hls
  exact ⟨l, us, rfl, hl, hroom, hus, fun k hk => hrange k (by simp [hk])⟩

theorem Fits.append (h : Fits room d (ts ++ ts') ls) :
    ∃ us vs, ls = us ++ vs ∧ Fits room d ts us ∧ Fits room d ts' vs := by
  obtain ⟨hroom, hls, hrange⟩ := h
  obtain ⟨us, vs, rfl, hus, hvs⟩ := List.map_eq_append_iff.mp hls
  exact ⟨us, vs, rfl, ⟨hroom, hus, fun k hk => hrange k (by simp [hk])⟩,
    ⟨hroom, hvs, fun k hk => hrange k (by simp [hk])⟩⟩

/-- A level of nesting needs room, and leaves one level less of it. -/
theorem Fits.enter (h : Fits room (d + 1) ts ls) : ∃ r, room = r + 1 ∧ Fits r d ts ls := by
  obtain ⟨hroom, hls, hrange⟩ := h
  exact ⟨room - 1, by omega, by omega, hls, hrange⟩

/-- Tokens in front of an operator, the operator, and tokens behind it. -/
theorem Fits.join (h : Fits room (max d d') (ts ++ t :: ts') ls) :
    ∃ us l vs, ls = us ++ l :: vs ∧ l.token = t ∧ Fits room d ts us ∧ Fits room d' ts' vs := by
  obtain ⟨us, ws, rfl, hus, hws⟩ := h.append
  obtain ⟨l, vs, rfl, hl, hvs⟩ := hws.cons
  exact ⟨us, l, vs, rfl, hl, hus.mono (Nat.le_max_left _ _), hvs.mono (Nat.le_max_right _ _)⟩

/-- Tokens in front of a last one. -/
theorem Fits.last (h : Fits room d (ts ++ [t]) ls) :
    ∃ us l, ls = us ++ [l] ∧ l.token = t ∧ Fits room d ts us := by
  obtain ⟨us, vs, rfl, hus, hvs⟩ := h.append
  obtain ⟨l, rfl, hl⟩ := List.map_eq_singleton_iff.mp hvs.tokens
  exact ⟨us, l, rfl, hl, hus⟩

/-- Tokens between an opening one and a closing one, one level further in. -/
theorem Fits.group (h : Fits room (d + 1) (t :: (ts ++ [t'])) ls) :
    ∃ l us r room', ls = l :: (us ++ [r]) ∧ l.token = t ∧ r.token = t' ∧ room = room' + 1 ∧
      Fits room' d ts us := by
  obtain ⟨room', rfl, hin⟩ := h.enter
  obtain ⟨l, ws, rfl, hl, hws⟩ := hin.cons
  obtain ⟨us, r, rfl, hr, hus⟩ := hws.last
  exact ⟨l, us, r, room', rfl, hl, hr, rfl, hus⟩

end Fits

/-- **The tokens of a derivation are read as its tree**, where there is room for it. -/
theorem complete_of_derives {c : Category} {d : Nat} {ts : List Token} {e : Expr}
    (h : Derives c d ts e) :
    ∀ {room : Nat} {ls : List Lexeme}, Fits room d ts ls → Complete cut room ls e c := by
  induction h with
  | name x =>
      intro room ls hfits rest _
      obtain ⟨⟨t, p⟩, rfl, rfl⟩ := List.map_eq_singleton_iff.mp hfits.tokens
      rfl
  | integer s =>
      intro room ls hfits rest _
      obtain ⟨⟨t, p⟩, rfl, rfl⟩ := List.map_eq_singleton_iff.mp hfits.tokens
      have hrange := hfits.inRange _ (List.mem_singleton_self _)
      simp only [List.singleton_append, operand, intOfLiteral?_of_inRange hrange]
  | float s =>
      intro room ls hfits rest _
      obtain ⟨⟨t, p⟩, rfl, rfl⟩ := List.map_eq_singleton_iff.mp hfits.tokens
      rfl
  | sumGroup h ih =>
      intro room ls hfits rest _
      obtain ⟨⟨t, p⟩, us, rp, room, rfl, rfl, hrp, rfl, hus⟩ := hfits.group
      exact group_takes (ih hus).sum_takes hrp
        (fun rest => ⟨⟨trivial, .cons (by rw [hrp]; rfl)⟩, .cons (by rw [hrp]; rfl)⟩) p rest
  | factor h ih =>
      intro room ls hfits
      exact Loops.one (ih hfits)
  | scaled hop hl hr ihl ihr =>
      intro room ls hfits
      obtain ⟨us, t, vs, rfl, ht, hus, hvs⟩ := hfits.join
      have hjoin := productJoins_token hop
      rw [← ht] at hjoin
      exact Loops.more (ihl hus) hjoin (fun _ => trivial) (ihr hvs)
  | term h ih =>
      intro room ls hfits
      exact Loops.one (Loops.takes (ih hfits))
  | added hop hl hr ihl ihr =>
      intro room ls hfits
      obtain ⟨us, t, vs, rfl, ht, hus, hvs⟩ := hfits.join
      obtain ⟨hjoin, hends⟩ := sumJoins_token hop
      rw [← ht] at hjoin hends
      exact Loops.more (ihl hus) hjoin (fun _ => ⟨trivial, .cons hends⟩) (Loops.takes (ihr hvs))
  | value h ih =>
      intro room ls hfits
      exact (ih hfits).sum_takes.alone
  | valuesCompared op hl hr ihl ihr =>
      intro room ls hfits
      obtain ⟨us, t, vs, rfl, ht, hus, hvs⟩ := hfits.join
      obtain ⟨hjoin, hproduct, hsum⟩ := compareJoins_token op
      rw [← ht] at hjoin hproduct hsum
      exact (Takes.joined (ihl hus).sum_takes hjoin
        (fun _ => ⟨⟨trivial, .cons hproduct⟩, .cons hsum⟩) (ihr hvs).sum_takes).mono
          fun rest hrest => hrest.1
  | trueWord =>
      intro room ls hfits rest _
      obtain ⟨⟨t, p⟩, rfl, rfl⟩ := List.map_eq_singleton_iff.mp hfits.tokens
      rfl
  | falseWord =>
      intro room ls hfits rest _
      obtain ⟨⟨t, p⟩, rfl, rfl⟩ := List.map_eq_singleton_iff.mp hfits.tokens
      rfl
  | conditionGroup h ih =>
      intro room ls hfits rest _
      obtain ⟨⟨t, p⟩, us, rp, room, rfl, rfl, hrp, rfl, hus⟩ := hfits.group
      exact group_takes (ih hus).condition_takes hrp
        (fun rest => ⟨⟨trivial, .cons (by rw [hrp]; rfl)⟩, .cons (by rw [hrp]; rfl)⟩) p rest
  | alone h ih =>
      intro room ls hfits
      exact Takes.alone (ih hfits)
  | truthsCompared op hl hr ihl ihr =>
      intro room ls hfits
      obtain ⟨us, t, vs, rfl, ht, hus, hvs⟩ := hfits.join
      have hjoin := (compareJoins_token op).1
      rw [← ht] at hjoin
      exact (Takes.joined (ihl hus) hjoin (fun _ => trivial) (ihr hvs)).mono
        fun rest hrest => hrest.1
  | tested h ih =>
      intro room ls hfits
      exact Loops.one (ih hfits)
  | connected op hl hr ihl ihr =>
      intro room ls hfits
      obtain ⟨us, t, vs, rfl, ht, hus, hvs⟩ := hfits.join
      obtain ⟨hjoin, hends⟩ := logicJoins_token op
      rw [← ht] at hjoin hends
      exact Loops.more (ihl hus) hjoin (fun _ => ⟨trivial, .cons hends⟩) (ihr hvs)

/-! ### Statements

A statement ends with a semicolon or a brace, and so it is read whatever follows.  Only where
statements stand one after another must the next token not start one more.
-/

/-- The parser finds the statement at the head of the tokens, whatever follows. -/
def TakesStmt (p : StmtParser) (ls : List Lexeme) (s : Stmt) : Prop :=
  ∀ rest, p (ls ++ rest) = .ok (some (s, rest))

/-- What a conditional or a block holds, one level of nesting further in. -/
def opened (inner : Nat → Opened Stmt) : Nat → Opened Stmt
  | 0 => noRoom
  | room + 1 => inner room

theorem statement_eq (room : Nat) :
    statement cut room = statementOver cut (sum cut room)
      (opened (fun r => ifThen cut (condition cut r) (statement cut r)) room)
      (opened (fun r => block cut (statement cut r)) room) := by
  cases room <;> rfl

private theorem closed_takes (cut : Option LexError) (make : Expr → Stmt) {e : Parser Expr}
    {F : List Lexeme → Prop} {us : List Lexeme} {semi : Lexeme} {x : Expr} (h : Takes e F us x)
    (hsemi : semi.token = .semicolon) (hF : ∀ rest, F (semi :: rest)) :
    Takes (closed cut e make) (fun _ => True) (us ++ [semi]) (make x) := by
  intro rest _
  have hclose : expect cut .semicolon (semi :: rest) = .ok ((), rest) :=
    expect_eq (by rw [hsemi]; rfl) rest
  simp only [closed, List.append_assoc, List.singleton_append, h (semi :: rest) (hF rest)]
  show (expect cut .semicolon (semi :: rest) >>= fun r => pure (make x, r.2)) = _
  rw [hclose]
  rfl

private theorem required_takes {p : StmtParser} {ls : List Lexeme} {s : Stmt}
    (h : TakesStmt p ls s) : Takes (required cut p) (fun _ => True) ls s := by
  intro rest _
  simp only [required, h rest]
  rfl

private theorem ifThen_takes (cut : Option LexError) {c : Parser Expr} {body : StmtParser}
    {F : List Lexeme → Prop} {us vs : List Lexeme} {lp rp : Lexeme} {e : Expr} {s : Stmt}
    (hc : Takes c F us e) (hbody : TakesStmt body vs s) (hlp : lp.token = .leftParen)
    (hrp : rp.token = .rightParen) (hF : ∀ rest, F (rp :: rest)) (p : Position) :
    Takes (ifThen cut c body p) (fun _ => True) (lp :: (us ++ rp :: vs)) (.ifThen e s) := by
  intro rest _
  have hopen : expect cut .leftParen (lp :: (us ++ (rp :: (vs ++ rest))))
      = .ok ((), us ++ (rp :: (vs ++ rest))) := expect_eq (by rw [hlp]; rfl) _
  have hcond := hc (rp :: (vs ++ rest)) (hF _)
  have hclose : expect cut .rightParen (rp :: (vs ++ rest)) = .ok ((), vs ++ rest) :=
    expect_eq (by rw [hrp]; rfl) _
  have hthen : required cut body (vs ++ rest) = .ok (s, rest) := required_takes hbody rest trivial
  simp only [ifThen, List.cons_append, List.append_assoc, bind, Except.bind, hopen, hcond, hclose,
    hthen]
  rfl

private theorem block_takes (cut : Option LexError) {body : StmtParser} {F : List Lexeme → Prop}
    {us : List Lexeme} {rb : Lexeme} {ss : List Stmt}
    (h : ∀ rest, Takes (statementsFrom body (us ++ rb :: rest)) F us ss)
    (hrb : rb.token = .rightBrace) (hF : ∀ rest, F (rb :: rest)) (p : Position) :
    Takes (block cut body p) (fun _ => True) (us ++ [rb]) (.block ss) := by
  intro rest _
  have hstatements := h rest (rb :: rest) (hF rest)
  have hclose : expect cut .rightBrace (rb :: rest) = .ok ((), rest) :=
    expect_eq (by rw [hrb]; rfl) rest
  simp only [block, statements, List.append_assoc, List.singleton_append, bind, Except.bind,
    hstatements, hclose]
  rfl

/-- A derivation of a statement has a token. -/
theorem ne_nil_of_derivesStmt {d : Nat} {ts : List Token} {s : Stmt} (h : DerivesStmt d ts s) :
    ts ≠ [] := by
  cases h <;> simp

/-- No statement starts where there is nothing, or with a closing brace. -/
theorem statement_nil (room : Nat) : statement cut room [] = .ok none := by
  cases room <;> rfl

private theorem statement_rightBrace {l : Lexeme} (h : l.token = .rightBrace) (rest : List Lexeme)
    (room : Nat) : statement cut room (l :: rest) = .ok none := by
  obtain ⟨t, p⟩ := l
  obtain rfl : t = .rightBrace := h
  cases room <;> rfl

mutual

/-- **The tokens of a statement's derivation are read as the statement.** -/
theorem takes_of_derivesStmt {d : Nat} {ts : List Token} {s : Stmt} :
    DerivesStmt d ts s → ∀ {room : Nat} {ls : List Lexeme}, Fits room d ts ls →
      TakesStmt (statement cut room) ls s
  | .empty, room, ls, hfits, rest => by
      obtain ⟨⟨t, p⟩, rfl, rfl⟩ := List.map_eq_singleton_iff.mp hfits.tokens
      rw [statement_eq]
      rfl
  | .assign x h, room, ls, hfits, rest => by
      obtain ⟨⟨t, p⟩, us, rfl, rfl, hus⟩ := hfits.cons
      obtain ⟨⟨t, q⟩, vs, rfl, rfl, hvs⟩ := hus.cons
      obtain ⟨ws, semi, rfl, hsemi, hws⟩ := hvs.last
      have hsum : Complete cut room ws _ .sum := complete_of_derives h hws
      have hclosed := closed_takes cut (.assign x) hsum.sum_takes hsemi
        (fun rest => ⟨⟨trivial, .cons (by rw [hsemi]; rfl)⟩, .cons (by rw [hsemi]; rfl)⟩) rest
        trivial
      rw [statement_eq]
      exact congrArg (some <$> ·) hclosed
  | .print h, room, ls, hfits, rest => by
      obtain ⟨⟨t, p⟩, us, rfl, rfl, hus⟩ := hfits.cons
      obtain ⟨ws, semi, rfl, hsemi, hws⟩ := hus.last
      have hshown : Complete cut room ws _ .shown := complete_of_derives h hws
      have hclosed := closed_takes cut .print hshown hsemi
        (fun rest => ⟨⟨⟨trivial, .cons (by rw [hsemi]; rfl)⟩, .cons (by rw [hsemi]; rfl)⟩,
          .cons (by rw [hsemi]; rfl)⟩) rest trivial
      rw [statement_eq]
      exact congrArg (some <$> ·) hclosed
  | .ifThen hc hbody, room, ls, hfits, rest => by
      obtain ⟨room, rfl, hin⟩ := hfits.enter
      obtain ⟨⟨t, p⟩, us, rfl, rfl, hus⟩ := hin.cons
      obtain ⟨lp, vs, rfl, hlp, hvs⟩ := hus.cons
      obtain ⟨cs, rp, bs, rfl, hrp, hcs, hbs⟩ := hvs.join
      have hcond : Complete cut room cs _ .condition := complete_of_derives hc hcs
      have hthen := takes_of_derivesStmt hbody hbs
      have htaken := ifThen_takes cut hcond.condition_takes hthen hlp hrp
        (fun rest => ⟨⟨trivial, .cons (by rw [hrp]; rfl)⟩, .cons (by rw [hrp]; rfl)⟩) p rest
        trivial
      rw [statement_eq]
      exact congrArg (some <$> ·) htaken
  | .block h, room, ls, hfits, rest => by
      obtain ⟨⟨t, p⟩, us, rb, room, rfl, rfl, hrb, rfl, hus⟩ := hfits.group
      have htaken := block_takes cut
        (fun rest => takes_of_derivesStmts h hus (by simp)) hrb
        (fun rest => statement_rightBrace hrb rest room) p rest trivial
      rw [statement_eq]
      exact congrArg (some <$> ·) htaken

theorem takes_of_derivesStmts {d : Nat} {ts : List Token} {ss : List Stmt} :
    DerivesStmts d ts ss → ∀ {room : Nat} {ls : List Lexeme}, Fits room d ts ls →
      ∀ {bound : List Lexeme}, ls.length ≤ bound.length →
        Takes (statementsFrom (statement cut room) bound)
          (fun rest => statement cut room rest = .ok none) ls ss
  | .nil, room, ls, hfits, bound, hbound, rest, hrest => by
      obtain rfl : ls = [] := List.map_eq_nil_iff.mp hfits.tokens
      cases bound with
      | nil => rfl
      | cons b bound =>
          simp only [List.nil_append, statementsFrom, hrest]
          rfl
  | .cons h hmore, room, ls, hfits, bound, hbound, rest, hrest => by
      obtain ⟨us, vs, rfl, hus, hvs⟩ := hfits.append
      have hne : us ≠ [] := by
        intro hnil
        rw [hnil] at hus
        exact ne_nil_of_derivesStmt h hus.tokens.symm
      have hpos := List.length_pos_iff.mpr hne
      cases bound with
      | nil =>
          simp only [List.length_append, List.length_nil] at hbound
          omega
      | cons b bound =>
          simp only [List.length_append, List.length_cons] at hbound
          have hfirst := takes_of_derivesStmt h
            (hus.mono (Nat.le_max_left _ _)) (vs ++ rest)
          have hothers := takes_of_derivesStmts hmore (hvs.mono (Nat.le_max_right _ _))
            (by omega : vs.length ≤ bound.length) rest hrest
          simp only [List.append_assoc, statementsFrom, bind, Except.bind, hfirst, hothers]
          rfl

end

/-- **The tokens of a program's derivation are read as the program.** -/
theorem program_of_derives {d : Nat} {ts : List Token} {p : Program} {ls : List Lexeme}
    (h : DerivesStmts d ts p) (hfits : Fits maxNesting d ts ls) :
    program none ls = .ok p := by
  have htaken : statementsFrom (statement none maxNesting) ls (ls ++ []) = .ok (p, []) :=
    takes_of_derivesStmts h hfits (Nat.le_refl _) [] (statement_nil _)
  rw [List.append_nil] at htaken
  simp only [program, statements, htaken, bind, Except.bind]
  rfl

end LoopFree.Parser
