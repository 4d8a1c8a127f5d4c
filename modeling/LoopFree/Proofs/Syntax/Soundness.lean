/-
What a parser has read was derived by the grammar.

`Reads p G` says that whenever the parser `p` succeeds, the tokens it took make a tree
of which `G` holds.  Every parser of expressions and statements reads what the grammar
derives with its room for nesting, literals in range included.  The loops carry it: what
has been read so far is a tree of the category, and each round joins one more part on.
-/
import LoopFree.Proofs.Syntax.Grammar
import LoopFree.Syntax.Parser

namespace LoopFree

/-- A computation in two steps succeeds when both do. -/
theorem bind_eq_ok {ε α β : Type} {x : Except ε α} {f : α → Except ε β} {b : β} :
    x >>= f = .ok b ↔ ∃ a, x = .ok a ∧ f a = .ok b := by
  cases x <;> simp [bind, Except.bind]

/-- A kind with one spelling has one token. -/
theorem Token.eq_of_kind_eq {t u : Token} (hu : u.kind.spelling?.isSome = true)
    (h : t.kind = u.kind) : t = u := by
  cases u <;> first
    | cases hu; done
    | cases t <;> first | rfl | cases h

namespace Parser

open Grammar

variable {cut : Option LexError}

/-- Whenever the parser succeeds, `G` holds of the tokens it took and of its answer. -/
def Reads {α : Type} (p : Parser α) (G : List Lexeme → α → Prop) : Prop :=
  ∀ ⦃ts rest : List Lexeme⦄ ⦃x : α⦄, p ts = .ok (x, rest) → ∃ used, used ++ rest = ts ∧ G used x

/-- The tokens derive the tree in the category, within the room and with integers in range. -/
def Within (room : Nat) (c : Category) (ls : List Lexeme) (e : Expr) : Prop :=
  ∃ d ≤ room, Derives c d (ls.map Lexeme.token) e ∧ ∀ l ∈ ls, l.token.InRange

theorem Within.mono {room : Nat} {c c' : Category} {ls : List Lexeme} {e : Expr}
    (h : Within room c ls e)
    (hup : ∀ {d : Nat} {ts : List Token}, Derives c d ts e → Derives c' d ts e) :
    Within room c' ls e := by
  obtain ⟨d, hd, hder, hrange⟩ := h
  exact ⟨d, hd, hup hder, hrange⟩

/-- Two parts with an operator between them, where a production joins such parts. -/
theorem Within.join {room : Nat} {c c₁ c₂ : Category} {ls ls' : List Lexeme} {t : Lexeme}
    {l r e : Expr} (hl : Within room c₁ ls l) (hr : Within room c₂ ls' r)
    (ht : t.token.InRange)
    (hjoin : ∀ {d d' : Nat} {ts ts' : List Token}, Derives c₁ d ts l → Derives c₂ d' ts' r →
      Derives c (max d d') (ts ++ t.token :: ts') e) :
    Within room c (ls ++ t :: ls') e := by
  obtain ⟨d, hd, hder, hrange⟩ := hl
  obtain ⟨d', hd', hder', hrange'⟩ := hr
  refine ⟨max d d', Nat.max_le.mpr ⟨hd, hd'⟩, ?_, ?_⟩
  · rw [List.map_append, List.map_cons]
    exact hjoin hder hder'
  · intro k hk
    rcases List.mem_append.mp hk with hk | hk
    · exact hrange k hk
    · rcases List.mem_cons.mp hk with rfl | hk
      · exact ht
      · exact hrange' k hk

/-! ### The tables of operators -/

private theorem productJoins_eq_some {t : Token} {join : Expr → Expr → Expr}
    (h : productJoins t = some join) :
    ∃ op : ArithOp, (op = .mul ∨ op = .div) ∧ t = op.token ∧ join = .arith op := by
  cases t <;> simp only [productJoins, reduceCtorEq, Option.some.injEq] at h
  case star => exact ⟨.mul, Or.inl rfl, rfl, h.symm⟩
  case slash => exact ⟨.div, Or.inr rfl, rfl, h.symm⟩

private theorem sumJoins_eq_some {t : Token} {join : Expr → Expr → Expr}
    (h : sumJoins t = some join) :
    ∃ op : ArithOp, (op = .add ∨ op = .sub) ∧ t = op.token ∧ join = .arith op := by
  cases t <;> simp only [sumJoins, reduceCtorEq, Option.some.injEq] at h
  case plus => exact ⟨.add, Or.inl rfl, rfl, h.symm⟩
  case minus => exact ⟨.sub, Or.inr rfl, rfl, h.symm⟩

private theorem logicJoins_eq_some {t : Token} {join : Expr → Expr → Expr}
    (h : logicJoins t = some join) : ∃ op : LogicOp, t = op.token ∧ join = .logic op := by
  cases t <;> simp only [logicJoins, reduceCtorEq, Option.some.injEq] at h
  case and => exact ⟨.and, rfl, h.symm⟩
  case or => exact ⟨.or, rfl, h.symm⟩

private theorem compareJoins_eq_some {t : Token} {join : Expr → Expr → Expr}
    (h : compareJoins t = some join) : ∃ op : CompareOp, t = op.token ∧ join = .compare op := by
  cases t <;> simp only [compareJoins, reduceCtorEq, Option.some.injEq] at h
  case doubleEquals => exact ⟨.eq, rfl, h.symm⟩
  case notEquals => exact ⟨.notEq, rfl, h.symm⟩

/-! ### What an operator of a table joins -/

section Joined

variable {room : Nat} {us vs : List Lexeme} {t : Lexeme} {l r : Expr} {join : Expr → Expr → Expr}

theorem Within.product (hl : Within room .product us l)
    (ht : productJoins t.token = some join) (hr : Within room .operand vs r) :
    Within room .product (us ++ t :: vs) (join l r) := by
  obtain ⟨op, hop, htok, rfl⟩ := productJoins_eq_some ht
  refine hl.join hr (htok ▸ ArithOp.token_inRange op) fun hdl hdr => ?_
  rw [htok]
  exact .scaled hop hdl hdr

theorem Within.sum (hl : Within room .sum us l) (ht : sumJoins t.token = some join)
    (hr : Within room .product vs r) : Within room .sum (us ++ t :: vs) (join l r) := by
  obtain ⟨op, hop, htok, rfl⟩ := sumJoins_eq_some ht
  refine hl.join hr (htok ▸ ArithOp.token_inRange op) fun hdl hdr => ?_
  rw [htok]
  exact .added hop hdl hdr

theorem Within.shown (hl : Within room .sum us l) (ht : compareJoins t.token = some join)
    (hr : Within room .sum vs r) : Within room .shown (us ++ t :: vs) (join l r) := by
  obtain ⟨op, htok, rfl⟩ := compareJoins_eq_some ht
  refine hl.join hr (htok ▸ CompareOp.token_inRange op) fun hdl hdr => ?_
  rw [htok]
  exact .valuesCompared op hdl hdr

theorem Within.test (hl : Within room .truth us l) (ht : compareJoins t.token = some join)
    (hr : Within room .truth vs r) : Within room .test (us ++ t :: vs) (join l r) := by
  obtain ⟨op, htok, rfl⟩ := compareJoins_eq_some ht
  refine hl.join hr (htok ▸ CompareOp.token_inRange op) fun hdl hdr => ?_
  rw [htok]
  exact .truthsCompared op hdl hdr

theorem Within.condition (hl : Within room .condition us l) (ht : logicJoins t.token = some join)
    (hr : Within room .test vs r) : Within room .condition (us ++ t :: vs) (join l r) := by
  obtain ⟨op, htok, rfl⟩ := logicJoins_eq_some ht
  refine hl.join hr (htok ▸ LogicOp.token_inRange op) fun hdl hdr => ?_
  rw [htok]
  exact .connected op hdl hdr

end Joined

/-! ### Chains of operators

The loop carries a tree for what was read so far.  As long as that tree derives from the tokens in
front, what is read behind an operator makes a greater one that does.
-/

section Chains

variable {joins : Joins} {part : Parser Expr} {P W : List Lexeme → Expr → Prop}

/-- A round of the loop reads an operator and a part, or the loop is at its end. -/
theorem chainFrom_eq_ok {bound ts rest : List Lexeme} {left e : Expr}
    (h : chainFrom joins part bound left ts = .ok (e, rest)) :
    (e = left ∧ rest = ts) ∨
      ∃ b bound' t ts' join right mid, bound = b :: bound' ∧ ts = t :: ts' ∧
        joins t.token = some join ∧ part ts' = .ok (right, mid) ∧
        chainFrom joins part bound' (join left right) mid = .ok (e, rest) := by
  cases bound with
  | nil =>
      rw [chainFrom.eq_def] at h
      cases h
      exact Or.inl ⟨rfl, rfl⟩
  | cons b bound =>
      cases ts with
      | nil =>
          cases h
          exact Or.inl ⟨rfl, rfl⟩
      | cons t ts =>
          rw [chainFrom] at h
          split at h
          · cases h
            exact Or.inl ⟨rfl, rfl⟩
          · rename_i join hjoin
            obtain ⟨⟨right, mid⟩, hpart, hloop⟩ := bind_eq_ok.mp h
            exact Or.inr ⟨b, bound, t, ts, join, right, mid, rfl, rfl, hjoin, hpart, hloop⟩

/-- The loop keeps what holds of the tree read so far, when joining a part keeps it. -/
theorem chainFrom_reads (hpart : Reads part P)
    (hjoin : ∀ {used used' : List Lexeme} {t : Lexeme} {l r : Expr} {join : Expr → Expr → Expr},
      W used l → joins t.token = some join → P used' r → W (used ++ t :: used') (join l r)) :
    ∀ {bound ts rest used : List Lexeme} {left e : Expr}, W used left →
      chainFrom joins part bound left ts = .ok (e, rest) →
      ∃ more, more ++ rest = ts ∧ W (used ++ more) e := by
  intro bound
  induction bound with
  | nil =>
      intro ts rest used left e hleft h
      rcases chainFrom_eq_ok h with ⟨rfl, rfl⟩ | ⟨b, bound', -, -, -, -, -, hb, -⟩
      · exact ⟨[], rfl, by simpa using hleft⟩
      · cases hb
  | cons b bound ih =>
      intro ts rest used left e hleft h
      rcases chainFrom_eq_ok h with
        ⟨rfl, rfl⟩ | ⟨_, _, t, ts', join, right, mid, hb, rfl, ht, hright, hloop⟩
      · exact ⟨[], rfl, by simpa using hleft⟩
      · cases hb
        obtain ⟨used', rfl, hused'⟩ := hpart hright
        obtain ⟨more, rfl, hmore⟩ := ih (hjoin hleft ht hused') hloop
        exact ⟨t :: (used' ++ more), by simp, by simpa using hmore⟩

private theorem chain_reads (hpart : Reads part P)
    (hone : ∀ {used : List Lexeme} {e : Expr}, P used e → W used e)
    (hjoin : ∀ {used used' : List Lexeme} {t : Lexeme} {l r : Expr} {join : Expr → Expr → Expr},
      W used l → joins t.token = some join → P used' r → W (used ++ t :: used') (join l r)) :
    Reads (chain joins part) W := by
  intro ts rest e h
  obtain ⟨⟨first, mid⟩, hfirst, hloop⟩ := bind_eq_ok.mp h
  obtain ⟨used, rfl, hused⟩ := hpart hfirst
  obtain ⟨more, rfl, hmore⟩ := chainFrom_reads hpart hjoin (hone hused) hloop
  exact ⟨used ++ more, by simp, hmore⟩

/-- At most one operator: the tree is a part, or two that are joined. -/
theorem joinedOnce_reads (hpart : Reads part P)
    (hone : ∀ {used : List Lexeme} {e : Expr}, P used e → W used e)
    (hjoin : ∀ {used used' : List Lexeme} {t : Lexeme} {l r : Expr} {join : Expr → Expr → Expr},
      P used l → joins t.token = some join → P used' r → W (used ++ t :: used') (join l r)) :
    Reads (joinedOnce joins part) W := by
  intro ts rest e h
  obtain ⟨⟨left, mid⟩, hleft, hloop⟩ := bind_eq_ok.mp h
  obtain ⟨used, rfl, hused⟩ := hpart hleft
  rcases chainFrom_eq_ok hloop with
    ⟨rfl, rfl⟩ | ⟨b, bound, t, ts', join, right, mid', hb, rfl, ht, hright, hend⟩
  · exact ⟨used, rfl, hone hused⟩
  · obtain ⟨used', rfl, hused'⟩ := hpart hright
    -- The bound holds one token, so the second round finds it empty.
    simp only [List.take_succ_cons, List.take_zero, List.cons.injEq] at hb
    rcases chainFrom_eq_ok hend with ⟨rfl, rfl⟩ | ⟨b', bound', -, -, -, -, -, hb', -⟩
    · exact ⟨used ++ t :: used', by simp, hjoin hused ht hused'⟩
    · rw [← hb.2] at hb'
      cases hb'

end Chains

/-! ### Expressions -/

theorem expect_eq_ok {k : TokenKind} {ts rest : List Lexeme} {u : Unit}
    (h : expect cut k ts = .ok (u, rest)) : ∃ l, l :: rest = ts ∧ l.token.kind = k := by
  cases ts with
  | nil => cases h
  | cons l ts =>
      rw [expect] at h
      split at h
      · rename_i hk
        cases h
        exact ⟨l, rfl, hk⟩
      · cases h

/-- How a group is read within so much room: its content has one level less. -/
def Grouped (room : Nat) (c : Category) (used : List Lexeme) (e : Expr) : Prop :=
  ∃ us rp, used = us ++ [rp] ∧ rp.token = .rightParen ∧ ∃ r, r + 1 = room ∧ Within r c us e

/-- What stands in parentheses, up to the closing one. -/
theorem parenthesized_reads {room : Nat} {c : Category} {inner : Parser Expr}
    (h : Reads inner (Within room c)) (p : Position) :
    Reads (parenthesized cut inner p) (Grouped (room + 1) c) := by
  intro ts rest e hok
  obtain ⟨⟨e', mid⟩, hinner, hok⟩ := bind_eq_ok.mp hok
  obtain ⟨⟨u, mid'⟩, hclose, hok⟩ := bind_eq_ok.mp hok
  cases hok
  obtain ⟨us, rfl, hin⟩ := h hinner
  obtain ⟨rp, rfl, hrp⟩ := expect_eq_ok hclose
  exact ⟨us ++ [rp], by simp, us, rp, rfl, Token.eq_of_kind_eq (u := .rightParen) rfl hrp,
    room, rfl, hin⟩

theorem Grouped.within {room : Nat} {c c' : Category} {used : List Lexeme} {e : Expr}
    {lp : Lexeme} (h : Grouped room c used e) (hlp : lp.token = .leftParen)
    (hgroup : ∀ {d : Nat} {ts : List Token}, Derives c d ts e →
      Derives c' (d + 1) (.leftParen :: (ts ++ [.rightParen])) e) :
    Within room c' (lp :: used) e := by
  obtain ⟨us, rp, rfl, hrp, r, rfl, d, hd, hder, hrange⟩ := h
  refine ⟨d + 1, by omega, ?_, ?_⟩
  · simpa [hlp, hrp] using hgroup hder
  · intro l hl
    simp only [List.mem_cons, List.mem_append, List.not_mem_nil, or_false] at hl
    rcases hl with rfl | hl | rfl
    · rw [hlp]; trivial
    · exact hrange l hl
    · rw [hrp]; trivial

theorem operand_reads {room : Nat} {group : Opened Expr}
    (h : ∀ p, Reads (group p) (Grouped room .sum)) :
    Reads (operand cut group) (Within room .operand) := by
  intro ts rest e hok
  unfold operand at hok
  split at hok
  · cases hok
    exact ⟨[_], rfl, 0, Nat.zero_le _, .name _, by simp [Token.InRange]⟩
  · rename_i s p rest'
    split at hok
    · rename_i n hn
      cases hok
      unfold intOfLiteral? at hn
      simp only at hn
      split at hn
      · rename_i hle
        cases hn
        exact ⟨[_], rfl, 0, Nat.zero_le _, .integer s, by simpa [Token.InRange] using hle⟩
      · cases hn
    · cases hok
  · cases hok
    exact ⟨[_], rfl, 0, Nat.zero_le _, .float _, by simp [Token.InRange]⟩
  · obtain ⟨used, rfl, hused⟩ := h _ hok
    exact ⟨_ :: used, rfl, hused.within rfl .sumGroup⟩
  · unfold refuse at hok
    split at hok <;> cases hok

theorem product_reads {room : Nat} {group : Opened Expr}
    (h : ∀ p, Reads (group p) (Grouped room .sum)) :
    Reads (chain productJoins (operand cut group)) (Within room .product) :=
  chain_reads (operand_reads h) (fun hp => hp.mono .factor) Within.product

private theorem sumOver_reads {room : Nat} {group : Opened Expr}
    (h : ∀ p, Reads (group p) (Grouped room .sum)) :
    Reads (sumOver cut group) (Within room .sum) :=
  chain_reads (product_reads h) (fun hp => hp.mono .term) Within.sum

theorem noRoom_reads {c : Category} (p : Position) :
    Reads (noRoom p) (Grouped 0 c) := by
  intro ts rest e h
  cases h

/-- **A sum that is read derives from the grammar**, within the room there was. -/
theorem sum_reads : ∀ room, Reads (sum cut room) (Within room .sum)
  | 0 => sumOver_reads noRoom_reads
  | room + 1 => sumOver_reads (parenthesized_reads (sum_reads room))

theorem truth_reads {room : Nat} {group : Opened Expr}
    (h : ∀ p, Reads (group p) (Grouped room .condition)) :
    Reads (truth cut group) (Within room .truth) := by
  intro ts rest e hok
  unfold truth at hok
  split at hok
  · cases hok
    exact ⟨[_], rfl, 0, Nat.zero_le _, .trueWord, by simp [Token.InRange]⟩
  · cases hok
    exact ⟨[_], rfl, 0, Nat.zero_le _, .falseWord, by simp [Token.InRange]⟩
  · obtain ⟨used, rfl, hused⟩ := h _ hok
    exact ⟨_ :: used, rfl, hused.within rfl .conditionGroup⟩
  · unfold refuse at hok
    split at hok <;> cases hok

theorem test_reads {room : Nat} {group : Opened Expr}
    (h : ∀ p, Reads (group p) (Grouped room .condition)) :
    Reads (joinedOnce compareJoins (truth cut group)) (Within room .test) :=
  joinedOnce_reads (truth_reads h) (fun hp => hp.mono .alone) Within.test

private theorem conditionOver_reads {room : Nat} {group : Opened Expr}
    (h : ∀ p, Reads (group p) (Grouped room .condition)) :
    Reads (conditionOver cut group) (Within room .condition) :=
  chain_reads (test_reads h) (fun hp => hp.mono .tested) Within.condition

/-- **A condition that is read derives from the grammar**, within the room there was. -/
theorem condition_reads : ∀ room, Reads (condition cut room) (Within room .condition)
  | 0 => conditionOver_reads noRoom_reads
  | room + 1 => conditionOver_reads (parenthesized_reads (condition_reads room))

/-- What a `print` shows derives from the grammar. -/
theorem shown_reads (room : Nat) :
    Reads (joinedOnce compareJoins (sum cut room)) (Within room .shown) :=
  joinedOnce_reads (sum_reads room) (fun hp => hp.mono .value) Within.shown

/-! ### Statements -/

/-- Whenever the parser finds a statement, `G` holds of the tokens it took and of it. -/
def ReadsStmt (p : StmtParser) (G : List Lexeme → Stmt → Prop) : Prop :=
  ∀ ⦃ts rest : List Lexeme⦄ ⦃s : Stmt⦄, p ts = .ok (some (s, rest)) →
    ∃ used, used ++ rest = ts ∧ G used s

/-- The tokens derive the statement, within the room and with integers in range. -/
def StmtWithin (room : Nat) (ls : List Lexeme) (s : Stmt) : Prop :=
  ∃ d ≤ room, DerivesStmt d (ls.map Lexeme.token) s ∧ ∀ l ∈ ls, l.token.InRange

/-- The tokens derive the statements, within the room and with integers in range. -/
def StmtsWithin (room : Nat) (ls : List Lexeme) (ss : List Stmt) : Prop :=
  ∃ d ≤ room, DerivesStmts d (ls.map Lexeme.token) ss ∧ ∀ l ∈ ls, l.token.InRange

private theorem map_some_eq_ok {ε α : Type} {x : Except ε α} {a : α} :
    some <$> x = .ok (some a) ↔ x = .ok a := by
  cases x <;> simp [Functor.map, Except.map]

/-! ### What makes a statement -/

section Made

variable {room : Nat} {us vs : List Lexeme}

theorem StmtWithin.empty (p : Position) : StmtWithin room [⟨.semicolon, p⟩] .empty :=
  ⟨0, Nat.zero_le _, .empty, by simp [Token.InRange]⟩

/-- An expression between the tokens that open a statement and a semicolon. -/
theorem Within.closed {c : Category} {make : Expr → Stmt} {x : Expr} {semi : Lexeme}
    (hx : Within room c us x) (hsemi : semi.token.kind = .semicolon) (opening : List Lexeme)
    (hopening : ∀ l ∈ opening, l.token.InRange)
    (hmake : ∀ {d : Nat} {ts : List Token} {x : Expr}, Derives c d ts x →
      DerivesStmt d (opening.map Lexeme.token ++ (ts ++ [.semicolon])) (make x)) :
    StmtWithin room (opening ++ (us ++ [semi])) (make x) := by
  obtain ⟨d, hd, hder, hrange⟩ := hx
  have hsemi := Token.eq_of_kind_eq (u := .semicolon) rfl hsemi
  refine ⟨d, hd, ?_, ?_⟩
  · simpa [hsemi] using hmake hder
  · intro l hl
    simp only [List.mem_append, List.mem_singleton] at hl
    rcases hl with hl | hl | rfl
    · exact hopening l hl
    · exact hrange l hl
    · rw [hsemi]; trivial

theorem StmtWithin.ifThen {l lp rp : Lexeme} {c : Expr} {body : Stmt}
    (hbody : StmtWithin room vs body) (hc : Within room .condition us c) (hl : l.token = .ifWord)
    (hlp : lp.token.kind = .leftParen) (hrp : rp.token.kind = .rightParen) :
    StmtWithin (room + 1) (l :: lp :: (us ++ rp :: vs)) (.ifThen c body) := by
  obtain ⟨d, hd, hder, hrange⟩ := hc
  obtain ⟨d', hd', hder', hrange'⟩ := hbody
  have hlp := Token.eq_of_kind_eq (u := .leftParen) rfl hlp
  have hrp := Token.eq_of_kind_eq (u := .rightParen) rfl hrp
  refine ⟨max d d' + 1, by omega, ?_, ?_⟩
  · simpa [hl, hlp, hrp] using DerivesStmt.ifThen hder hder'
  · intro k hk
    simp only [List.mem_cons, List.mem_append] at hk
    rcases hk with rfl | rfl | hk | rfl | hk
    · rw [hl]; trivial
    · rw [hlp]; trivial
    · exact hrange k hk
    · rw [hrp]; trivial
    · exact hrange' k hk

theorem StmtsWithin.block {l rb : Lexeme} {body : List Stmt} (h : StmtsWithin room us body)
    (hl : l.token = .leftBrace) (hrb : rb.token.kind = .rightBrace) :
    StmtWithin (room + 1) (l :: (us ++ [rb])) (.block body) := by
  obtain ⟨d, hd, hder, hrange⟩ := h
  have hrb := Token.eq_of_kind_eq (u := .rightBrace) rfl hrb
  refine ⟨d + 1, by omega, ?_, ?_⟩
  · simpa [hl, hrb] using DerivesStmt.block hder
  · intro k hk
    simp only [List.mem_cons, List.mem_append, List.not_mem_nil, or_false] at hk
    rcases hk with rfl | hk | rfl
    · rw [hl]; trivial
    · exact hrange k hk
    · rw [hrb]; trivial

theorem StmtsWithin.nil : StmtsWithin room [] [] :=
  ⟨0, Nat.zero_le _, .nil, by simp⟩

theorem StmtWithin.cons {s : Stmt} {rest : List Stmt} (h : StmtWithin room us s)
    (hrest : StmtsWithin room vs rest) : StmtsWithin room (us ++ vs) (s :: rest) := by
  obtain ⟨d, hd, hder, hrange⟩ := h
  obtain ⟨d', hd', hder', hrange'⟩ := hrest
  refine ⟨max d d', Nat.max_le.mpr ⟨hd, hd'⟩, ?_, ?_⟩
  · rw [List.map_append]
    exact .cons hder hder'
  · intro k hk
    rcases List.mem_append.mp hk with hk | hk
    · exact hrange k hk
    · exact hrange' k hk

end Made

/-! ### Parsers of statements -/

/-- A statement that ends with a semicolon, after the tokens that open it. -/
theorem closed_reads {c : Category} {room : Nat} {e : Parser Expr} {make : Expr → Stmt}
    (h : Reads e (Within room c)) (opening : List Lexeme)
    (hopening : ∀ l ∈ opening, l.token.InRange)
    (hmake : ∀ {d : Nat} {ts : List Token} {x : Expr}, Derives c d ts x →
      DerivesStmt d (opening.map Lexeme.token ++ (ts ++ [.semicolon])) (make x)) :
    Reads (closed cut e make) fun used s => StmtWithin room (opening ++ used) s := by
  intro ts rest s hok
  obtain ⟨⟨x, mid⟩, hx, hok⟩ := bind_eq_ok.mp hok
  obtain ⟨⟨u, mid'⟩, hend, hok⟩ := bind_eq_ok.mp hok
  cases hok
  obtain ⟨us, rfl, hin⟩ := h hx
  obtain ⟨semi, rfl, hsemi⟩ := expect_eq_ok hend
  exact ⟨us ++ [semi], by simp, hin.closed hsemi opening hopening hmake⟩

theorem required_reads {p : StmtParser} {G : List Lexeme → Stmt → Prop} (h : ReadsStmt p G) :
    Reads (required cut p) G := by
  intro ts rest s hok
  obtain ⟨found, hfound, hok⟩ := bind_eq_ok.mp hok
  split at hok
  · cases hok
    exact h hfound
  · cases hok
  · cases hok

private theorem ifThen_reads {room : Nat} {c : Parser Expr} {body : StmtParser}
    (hc : Reads c (Within room .condition)) (hbody : ReadsStmt body (StmtWithin room))
    {l : Lexeme} (hl : l.token = .ifWord) (p : Position) :
    Reads (ifThen cut c body p) fun used s => StmtWithin (room + 1) (l :: used) s := by
  intro ts rest s hok
  obtain ⟨⟨u, t₁⟩, hopen, hok⟩ := bind_eq_ok.mp hok
  obtain ⟨⟨e, t₂⟩, hcond, hok⟩ := bind_eq_ok.mp hok
  obtain ⟨⟨u', t₃⟩, hclose, hok⟩ := bind_eq_ok.mp hok
  obtain ⟨⟨b, t₄⟩, hthen, hok⟩ := bind_eq_ok.mp hok
  cases hok
  obtain ⟨lp, rfl, hlp⟩ := expect_eq_ok hopen
  obtain ⟨us, rfl, hcin⟩ := hc hcond
  obtain ⟨rp, rfl, hrp⟩ := expect_eq_ok hclose
  obtain ⟨vs, rfl, hbin⟩ := required_reads hbody hthen
  exact ⟨lp :: (us ++ rp :: vs), by simp, hbin.ifThen hcin hl hlp hrp⟩

theorem statementsFrom_reads {room : Nat} {p : StmtParser} (h : ReadsStmt p (StmtWithin room)) :
    ∀ bound, Reads (statementsFrom p bound) (StmtsWithin room) := by
  intro bound
  induction bound with
  | nil =>
      intro ts rest ss hok
      cases hok
      exact ⟨[], rfl, .nil⟩
  | cons b bound ih =>
      intro ts rest ss hok
      rw [statementsFrom] at hok
      obtain ⟨found, hfound, hok⟩ := bind_eq_ok.mp hok
      split at hok
      · cases hok
        exact ⟨[], rfl, .nil⟩
      · obtain ⟨⟨more, mid⟩, hmore, hok⟩ := bind_eq_ok.mp hok
        cases hok
        obtain ⟨us, rfl, hin⟩ := h hfound
        obtain ⟨vs, rfl, hmorein⟩ := ih hmore
        exact ⟨us ++ vs, by simp, hin.cons hmorein⟩

private theorem block_reads {room : Nat} {body : StmtParser}
    (hbody : ReadsStmt body (StmtWithin room)) {l : Lexeme} (hl : l.token = .leftBrace)
    (p : Position) :
    Reads (block cut body p) fun used s => StmtWithin (room + 1) (l :: used) s := by
  intro ts rest s hok
  obtain ⟨⟨ss, t₁⟩, hbodies, hok⟩ := bind_eq_ok.mp hok
  obtain ⟨⟨u, t₂⟩, hclose, hok⟩ := bind_eq_ok.mp hok
  cases hok
  obtain ⟨us, rfl, hin⟩ := statementsFrom_reads hbody ts hbodies
  obtain ⟨rb, rfl, hrb⟩ := expect_eq_ok hclose
  exact ⟨us ++ [rb], by simp, hin.block hl hrb⟩

private theorem statementOver_reads {room : Nat} {sum : Parser Expr} {ifThen block : Opened Stmt}
    (hsum : Reads sum (Within room .sum))
    (hshown : Reads (joinedOnce compareJoins sum) (Within room .shown))
    (hif : ∀ {l : Lexeme}, l.token = .ifWord → ∀ p, Reads (ifThen p) fun used s =>
      StmtWithin room (l :: used) s)
    (hblock : ∀ {l : Lexeme}, l.token = .leftBrace → ∀ p, Reads (block p) fun used s =>
      StmtWithin room (l :: used) s) :
    ReadsStmt (statementOver cut sum ifThen block) (StmtWithin room) := by
  intro ts rest s hok
  unfold statementOver at hok
  split at hok
  · rename_i p ts
    obtain ⟨used, rfl, hused⟩ :=
      closed_reads hshown [⟨.printWord, p⟩] (by simp [Token.InRange]) .print
        (map_some_eq_ok.mp hok)
    exact ⟨_ :: used, rfl, hused⟩
  · rename_i x p ts
    split at hok
    · rename_i q ts
      obtain ⟨used, rfl, hused⟩ :=
        closed_reads hsum [⟨.identifier x, p⟩, ⟨.assign, q⟩]
          (by simp [Token.InRange]) (.assign x) (map_some_eq_ok.mp hok)
      exact ⟨_ :: _ :: used, rfl, hused⟩
    · cases hok
    · cases hok
  · cases hok
    exact ⟨[_], rfl, .empty _⟩
  · rename_i p ts
    obtain ⟨used, rfl, hused⟩ := hif (l := ⟨.ifWord, p⟩) rfl p (map_some_eq_ok.mp hok)
    exact ⟨_ :: used, rfl, hused⟩
  · rename_i p ts
    obtain ⟨used, rfl, hused⟩ := hblock (l := ⟨.leftBrace, p⟩) rfl p (map_some_eq_ok.mp hok)
    exact ⟨_ :: used, rfl, hused⟩
  · cases hok

/-- **A statement that is read derives from the grammar**, within the room there was. -/
theorem statement_reads : ∀ room, ReadsStmt (statement cut room) (StmtWithin room)
  | 0 => by
      refine statementOver_reads (sum_reads 0) (shown_reads 0) ?_ ?_
      · intro l _ p ts rest s h
        cases h
      · intro l _ p ts rest s h
        cases h
  | room + 1 =>
      statementOver_reads (sum_reads (room + 1)) (shown_reads (room + 1))
        (ifThen_reads (condition_reads room) (statement_reads room))
        (block_reads (statement_reads room))

/-- **A program that is read derives from the grammar**, and its tokens end with no failure. -/
theorem program_reads {cut : Option LexError} {ls : List Lexeme} {p : Program}
    (h : program cut ls = .ok p) : cut = none ∧ StmtsWithin maxNesting ls p := by
  obtain ⟨⟨body, rest⟩, hbody, hok⟩ := bind_eq_ok.mp h
  obtain ⟨used, hused, hin⟩ := statementsFrom_reads (statement_reads maxNesting) ls hbody
  simp only at hok
  split at hok
  · cases hok
    rw [List.append_nil] at hused
    exact ⟨rfl, hused ▸ hin⟩
  · cases hok
  · cases hok

end Parser

end LoopFree
