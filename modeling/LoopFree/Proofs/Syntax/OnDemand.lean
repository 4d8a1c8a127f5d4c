/-
Reading programs from a look-ahead, beside reading them from a list.

`Follows cut p q` says that `q`, which reads from a look-ahead, ends as the parser `p` does on the
tokens ahead.  There is one difference.  A parser that has enough before the failure `cut` succeeds,
while `q` may look for one token more and meet the failure; what comes behind that fails with `cut`
anyhow, and so the two agree again in the end.

Requests are made where their answer is known.  Looking for a token leaves it held (`Seen`), and a
token that is held and of a known kind is what an `Access` gives.  So nothing else of the access
enters, and what is read is the same for all of them.
-/
import LoopFree.Proofs.Syntax.Rounds
import LoopFree.Proofs.Token.Ahead
import LoopFree.Syntax.OnDemand

namespace LoopFree

/-! ### Errors that there are

A token that was looked at is expected once more when it is taken, and there has to be an error
for the case that it is gone.  Such errors are never seen.
-/

/-- What a source can lack.  The other expectations are for tokens that were seen before they were
expected. -/
def Expectation.Sought : Expectation → Prop
  | operand | truth | statement => True
  | token k => k = .semicolon ∨ k = .leftParen ∨ k = .rightParen ∨ k = .rightBrace
  | number => False

/-- The errors of a source whose tokens are cut off by this failure, or by none. -/
def ParseError.Reported (cut : Option LexError) : ParseError → Prop
  | lexical why => cut = some why
  | expected what _ _ | unexpectedEnd what => what.Sought
  | unexpectedToken .. | numberOutOfRange .. | tooDeep .. => True

namespace OnDemand

open LoopFree.Parser (Quiet joining Shrinks shrinks_of_reads chainFrom_eq joinedOnce_eq
  quiet_chainFrom length_lt_of_joining)

/-! ### Readings that agree

What agrees is the outcome and what is ahead afterwards.  Where the look-ahead has met the failure
early, behind the last token, the reading is over; the parser would go on, but there is nothing
left for it to go on with, and `quiet` says that it ends with the same failure or not at all.
-/

section Agrees

variable {α β : Type} {cut : Option LexError}

/-- What has come of a parser on the tokens ahead, and of a reading from the look-ahead. -/
inductive Agrees (cut : Option LexError) :
    Except ParseError (α × List Lexeme) → Except ParseError (α × Lookahead) → Prop
  | read {x : α} {rest : List Lexeme} {s : Lookahead} (hahead : s.Ahead rest cut) :
      Agrees cut (.ok (x, rest)) (.ok (x, s))
  | failed {why : ParseError} (hwhy : why.Reported cut) : Agrees cut (.error why) (.error why)
  /-- The failure has been met behind the last token, which the parser has not looked past. -/
  | early {x : α} {why : LexError} (hcut : cut = some why) :
      Agrees cut (.ok (x, [])) (.error (.lexical why))

/-- The reading from a look-ahead does what the parser does on the tokens ahead. -/
structure Follows (cut : Option LexError) (p : Parser α) (q : OnDemand α) : Prop where
  agrees : ∀ {s : Lookahead} {ts : List Lexeme}, s.Ahead ts cut → Agrees cut (p ts) (q s)
  quiet : ∀ {why : LexError}, cut = some why → Quiet why (p [])

/-- The same, where the token that opens a level of nesting is held, and only the reading from the
look-ahead has still to take it. -/
def FollowsOpened (cut : Option LexError) (opener : TokenKind) (p : Opened α) (q : OnDemand α) :
    Prop :=
  ∀ {s : Lookahead} {l : Lexeme} {rest : List Lexeme}, s.Holds l rest cut →
    l.token.kind = opener → Agrees cut (p l.position rest) (q s)

theorem bind_apply (q : OnDemand α) (k : α → OnDemand β) (s : Lookahead) :
    (q >>= k) s = q s >>= fun a => k a.1 a.2 := rfl

variable {r : Except ParseError (α × List Lexeme)} {r' : Except ParseError (α × Lookahead)}
  {p : Parser α} {q : OnDemand α} {j : α → Parser β} {k : α → OnDemand β}

private theorem agrees_of_quiet {why : LexError} (h : Quiet why r) (hcut : cut = some why) :
    Agrees cut r (.error (.lexical why)) := by
  rcases h with rfl | ⟨x, rfl⟩
  · exact .failed hcut
  · exact .early hcut

/-- Two readings one after another. -/
theorem Agrees.bind (h : Agrees cut r r')
    (hread : ∀ {x rest s}, r = .ok (x, rest) → s.Ahead rest cut → Agrees cut (j x rest) (k x s))
    (hquiet : ∀ {x why}, r = .ok (x, []) → cut = some why → Quiet why (j x [])) :
    Agrees cut (r >>= fun a => j a.1 a.2) (r' >>= fun a => k a.1 a.2) := by
  cases h with
  | read hahead => exact hread rfl hahead
  | failed hwhy => exact .failed hwhy
  | early hcut => exact agrees_of_quiet (hquiet rfl hcut) hcut

theorem Follows.bind (h : Follows cut p q) (hk : ∀ x, Follows cut (j x) (k x)) :
    Follows cut (fun ts => p ts >>= fun a => j a.1 a.2) (q >>= k) where
  agrees hahead := (h.agrees hahead).bind (fun _ => (hk _).agrees) fun _ => (hk _).quiet
  quiet hcut := (h.quiet hcut).bind fun x _ => (hk x).quiet hcut

theorem follows_pure (x : α) : Follows cut (fun ts => .ok (x, ts)) (pure x) where
  agrees hahead := .read hahead
  quiet _ := Or.inr ⟨x, rfl⟩

end Agrees

/-! ### Requests

Looking a few tokens ahead changes what is held and nothing else.  What is held can be looked at
and taken, and nothing else is ever asked of an `Access`.
-/

section Requests

variable {α : Type} {cut : Option LexError} {s : Lookahead} {l : Lexeme} {ts rest : List Lexeme}
  (a : Access)

/-- What it comes to if one looks past some tokens for one more, and makes `view` of it. -/
inductive Seen (view : Option Lexeme → α) (past : List Lexeme) (cut : Option LexError) :
    List Lexeme → Except ParseError (α × Lookahead) → Prop
  | token {s : Lookahead} {l : Lexeme} {rest : List Lexeme}
      (hahead : s.Ahead (past ++ l :: rest) cut) (hheld : s.held[past.length]? = some l) :
      Seen view past cut (l :: rest) (.ok (view (some l), s))
  | ended {s : Lookahead} (hahead : s.Ahead past cut) (hcut : cut = none) :
      Seen view past cut [] (.ok (view none, s))
  | failed {why : LexError} (hcut : cut = some why) :
      Seen view past cut [] (.error (.lexical why))

theorem hasNext_seen (past : List Lexeme) (h : s.Ahead (past ++ ts) cut) :
    Seen Option.isSome past cut ts (hasNext (past.length + 1) s) := by
  have hfill := h.fill (past.length + 1)
  simp only [hasNext, ask, Lookahead.hasNext]
  generalize s.fill (past.length + 1) = r at hfill ⊢
  have hend : (past ++ ts).length < past.length + 1 → ts = [] := by
    rw [List.length_append]
    intro hshort
    exact List.length_eq_zero_iff.mp (by omega)
  cases hfill with
  | @enough s hahead hheld =>
      have hget := hahead.getElem? hheld
      rw [List.getElem?_append_right (Nat.le_refl _), Nat.sub_self] at hget
      cases ts with
      | nil => rw [List.getElem?_eq_getElem hheld] at hget; cases hget
      | cons l rest => exact .token hahead hget
  | ended hahead hcut hshort =>
      obtain rfl := hend hshort
      rw [List.append_nil] at hahead
      exact .ended hahead hcut
  | failed hcut hshort =>
      obtain rfl := hend hshort
      exact .failed hcut

theorem peekKind_seen (past : List Lexeme) (h : s.Ahead (past ++ ts) cut) :
    Seen (Option.map (·.token.kind)) past cut ts (peekKind a past.length s) := by
  have hseen := hasNext_seen past h
  unfold peekKind
  rw [bind_apply]
  generalize hasNext (past.length + 1) s = r at hseen ⊢
  cases hseen with
  | @token s l rest hahead hheld =>
      show Seen _ _ _ _ (look a past.length s >>= _)
      have hlook : look a past.length s = .ok (l, s) := by
        unfold look ask
        rw [a.look_held hheld trivial]
      rw [hlook]
      exact .token hahead hheld
  | ended hahead hcut => exact .ended hahead hcut
  | failed hcut => exact .failed hcut

private theorem check_seen (k : TokenKind) (h : s.Ahead ts cut) :
    Seen (fun l? => decide (l?.map (·.token.kind) = some k)) [] cut ts (check a k s) := by
  have hseen := peekKind_seen a [] h
  unfold check
  rw [bind_apply]
  generalize peekKind a 0 s = r at hseen ⊢
  cases hseen with
  | token hahead hheld => exact .token hahead hheld
  | ended hahead hcut => exact .ended hahead hcut
  | failed hcut => exact .failed hcut

theorem look_holds (h : s.Holds l rest cut) : look a 0 s = .ok (l, s) := by
  unfold look ask
  rw [a.look_held h.head trivial]

theorem advance_holds (kinds : TokenKind → Prop) (h : s.Holds l rest cut)
    (hkind : kinds l.token.kind) :
    ∃ s', advance a kinds s = .ok (l, s') ∧ s'.Ahead rest cut := by
  obtain ⟨held, hheld, hahead⟩ := h.eq_cons
  refine ⟨_, ?_, hahead⟩
  unfold advance ask
  rw [a.take_held hheld hkind]

/-- A token of the kind that is the first one ahead is taken. -/
theorem expect_ahead {k : TokenKind} (h : s.Ahead (l :: rest) cut) (hk : l.token.kind = k) :
    ∃ s', expect a k s = .ok ((), s') ∧ s'.Ahead rest cut := by
  have hseen := check_seen a k h
  unfold expect
  rw [bind_apply]
  generalize check a k s = r at hseen ⊢
  cases hseen with
  | @token s _ _ hahead hheld =>
      obtain ⟨s', htaken, hahead'⟩ := advance_holds a (· = k) ⟨hahead, hheld⟩ hk
      refine ⟨s', ?_, hahead'⟩
      show (if decide (some l.token.kind = some k) = true then _ else _ : OnDemand Unit) s = _
      rw [if_pos (decide_eq_true (congrArg some hk)), bind_apply, htaken]
      rfl

/-- A name that is the first token ahead is taken. -/
theorem expectName_ahead {x : String} {place : Position}
    (h : s.Ahead (⟨.identifier x, place⟩ :: rest) cut) :
    ∃ s', expectName a s = .ok (x, s') ∧ s'.Ahead rest cut := by
  have hseen := hasNext_seen [] h
  unfold expectName
  rw [bind_apply]
  generalize hasNext 1 s = r at hseen ⊢
  cases hseen with
  | @token s _ _ hahead hheld =>
      have hholds : s.Holds ⟨.identifier x, place⟩ rest cut := ⟨hahead, hheld⟩
      obtain ⟨s', htaken, hahead'⟩ := advance_holds a (· = .identifier) hholds rfl
      refine ⟨s', ?_, hahead'⟩
      show (look a 0 s >>= _) = _
      rw [look_holds a hholds]
      show (advance a (· = .identifier) s >>= _) = _
      rw [htaken]
      rfl

private theorem refuse_follows {what : Expectation} (hwhat : what.Sought) :
    Follows cut (@Parser.refuse α cut what) (refuse a what) where
  agrees {s ts} h := by
    have hseen := hasNext_seen [] h
    unfold refuse
    rw [bind_apply]
    generalize hasNext 1 s = r at hseen ⊢
    cases hseen with
    | @token s l rest hahead hheld =>
        show Agrees cut _ (look a 0 s >>= _)
        rw [look_holds a ⟨hahead, hheld⟩]
        exact .failed hwhat
    | ended hahead hcut =>
        subst hcut
        exact .failed hwhat
    | failed hcut =>
        subst hcut
        exact .failed rfl
  quiet hcut := by
    subst hcut
    exact Or.inl rfl

theorem expect_follows {k : TokenKind} (hk : Expectation.Sought (.token k)) :
    Follows cut (Parser.expect cut k) (expect a k) where
  agrees {s ts} h := by
    cases ts with
    | nil =>
        have hseen := check_seen a k h
        unfold expect
        rw [bind_apply]
        generalize check a k s = r at hseen ⊢
        cases hseen with
        | ended hahead hcut => exact (refuse_follows a hk).agrees hahead
        | failed hcut =>
            subst hcut
            exact .failed rfl
    | cons l rest =>
        by_cases hkind : l.token.kind = k
        · obtain ⟨s', hexpect, hahead⟩ := expect_ahead a h hkind
          rw [hexpect, Parser.expect, if_pos hkind]
          exact .read hahead
        · have hseen := check_seen a k h
          unfold expect
          rw [bind_apply, Parser.expect, if_neg hkind]
          generalize check a k s = r at hseen ⊢
          cases hseen with
          | @token s _ _ hahead hheld =>
              show Agrees cut _ ((if decide (some l.token.kind = some k) = true then _ else _ :
                OnDemand Unit) s)
              rw [if_neg (by simpa using hkind)]
              exact (refuse_follows a hk).agrees hahead
  quiet hcut := by
    subst hcut
    exact Or.inl rfl

/-- What is decided by the kind of the next token, which is held from then on. -/
theorem follows_of_peek {p : Parser α} {k : Option TokenKind → OnDemand α}
    (htoken : ∀ {s : Lookahead} {l : Lexeme} {rest : List Lexeme}, s.Holds l rest cut →
      Agrees cut (p (l :: rest)) (k (some l.token.kind) s))
    (hend : ∀ {s : Lookahead}, s.Ahead [] cut → Agrees cut (p []) (k none s))
    (hquiet : ∀ {why : LexError}, cut = some why → Quiet why (p [])) :
    Follows cut p (peekKind a 0 >>= k) where
  agrees {s ts} h := by
    have hseen := peekKind_seen a [] h
    rw [bind_apply]
    generalize peekKind a 0 s = r at hseen ⊢
    cases hseen with
    | token hahead hheld => exact htoken ⟨hahead, hheld⟩
    | ended hahead hcut => exact hend hahead
    | failed hcut => exact agrees_of_quiet (hquiet hcut) hcut
  quiet := hquiet

end Requests

/-! ### Chains of operators -/

section Chains

variable {cut : Option LexError} {joins : Parser.Joins} (a : Access)

/-- How the operators join, said of tokens. -/
def joinsOf (operators : Operators) : Parser.Joins :=
  fun t => (operators.find? fun o => t.kind = o.1).map (·.2)

private theorem joinsOf_sum : joinsOf sumOperators = Parser.sumJoins := by
  funext t
  cases t <;> rfl

private theorem joinsOf_product : joinsOf productOperators = Parser.productJoins := by
  funext t
  cases t <;> rfl

private theorem joinsOf_logic : joinsOf logicOperators = Parser.logicJoins := by
  funext t
  cases t <;> rfl

private theorem joinsOf_compare : joinsOf compareOperators = Parser.compareJoins := by
  funext t
  cases t <;> rfl

/-- Takes a token of the kind, if one is next. -/
private def eating (k : TokenKind) : Parser Bool
  | [] => .ok (false, [])
  | l :: rest => if l.token.kind = k then .ok (true, rest) else .ok (false, l :: rest)

private theorem eat_follows (k : TokenKind) : Follows cut (eating k) (eat a k) where
  agrees {s ts} h := by
    have hseen := check_seen a k h
    unfold eat
    rw [bind_apply]
    generalize check a k s = r at hseen ⊢
    cases hseen with
    | @token s l rest hahead hheld =>
        show Agrees cut _ ((if decide (some l.token.kind = some k) = true then _ else _ :
          OnDemand Bool) s)
        by_cases hkind : l.token.kind = k
        · obtain ⟨s', htaken, hahead'⟩ := advance_holds a (· = k) ⟨hahead, hheld⟩ hkind
          rw [eating, if_pos hkind, if_pos (by simpa using hkind), bind_apply, htaken]
          exact .read hahead'
        · rw [eating, if_neg hkind, if_neg (by simpa using hkind)]
          exact .read hahead
    | ended hahead hcut => exact .read hahead
    | failed hcut => exact .early hcut
  quiet _ := Or.inr ⟨false, rfl⟩

/-- The operators of a table are tried in order, and what is taken is what the table says. -/
theorem operator_follows (operators : Operators) :
    Follows cut (joining (joinsOf operators)) (operator a operators) := by
  induction operators with
  | nil =>
      have hnone : joining (joinsOf []) = fun ts => .ok (none, ts) := by
        funext ts
        cases ts <;> rfl
      rw [hnone]
      exact follows_pure none
  | cons o operators ih =>
      obtain ⟨k, join⟩ := o
      have hfirst : ∀ taken : Bool, Follows cut
          (if taken = true then fun ts => .ok (some join, ts) else joining (joinsOf operators))
          (if taken = true then pure (some join) else operator a operators) := by
        intro taken
        cases taken with
        | true => exact follows_pure (some join)
        | false => exact ih
      have hjoining : joining (joinsOf ((k, join) :: operators)) = fun ts =>
          eating k ts >>= fun t =>
            (if t.1 = true then fun ts => .ok (some join, ts)
            else joining (joinsOf operators)) t.2 := by
        funext ts
        cases ts with
        | nil => rfl
        | cons l rest =>
            by_cases hkind : l.token.kind = k <;>
              simp [joining, joinsOf, eating, hkind, bind, Except.bind]
      rw [hjoining]
      exact (eat_follows a k).bind hfirst

variable {part : Parser Expr} {part' : OnDemand Expr}

section Loop

variable {operators : Operators} (hpart : Follows cut part part')
include hpart

private theorem joinedOnce_follows :
    Follows cut (Parser.joinedOnce (joinsOf operators) part) (joinedOnce a operators part') := by
  have hright : ∀ (left : Expr) (found : Option (Expr → Expr → Expr)),
      Follows cut (Parser.goOn part (fun e ts => .ok (e, ts)) left found)
        (goOn part' pure left found) := by
    intro left found
    cases found with
    | none => exact follows_pure left
    | some join => exact hpart.bind fun right => follows_pure (join left right)
  rw [funext joinedOnce_eq]
  exact hpart.bind fun left => (operator_follows a operators).bind (hright left)

variable (hshrinks : Shrinks part)
include hshrinks

private theorem chainFrom_agrees (rounds : Nat) :
    ∀ {bound ts : List Lexeme} {left : Expr} {s : Lookahead},
      ts.length < rounds → ts.length ≤ bound.length → s.Ahead ts cut →
        Agrees cut (Parser.chainFrom (joinsOf operators) part bound left ts)
          (chainFrom a operators part' rounds left s) := by
  induction rounds with
  | zero =>
      intro bound ts left s hrounds
      exact absurd hrounds (Nat.not_lt_zero _)
  | succ rounds ih =>
      intro bound ts left s hrounds hbound h
      rw [chainFrom_eq left hbound]
      refine Agrees.bind (k := goOn part' (chainFrom a operators part' rounds) left)
        ((operator_follows a operators).agrees h) (fun {found rest s} htaken hahead => ?_)
        fun {found why} _ hcut => ?_
      · cases found with
        | none => exact .read hahead
        | some join =>
            have hlt := length_lt_of_joining htaken
            refine Agrees.bind
              (j := fun right => Parser.chainFrom _ part bound.tail (join left right))
              (k := fun right => chainFrom a operators part' rounds (join left right))
              (hpart.agrees hahead) (fun {right rest' s} hright hahead => ?_)
              fun _ _ => quiet_chainFrom _ _
            have hle := hshrinks hright
            exact ih (by omega) (by rw [List.length_tail]; omega) hahead
      · cases found with
        | none => exact Or.inr ⟨left, rfl⟩
        | some join =>
            exact Quiet.bind
              (j := fun right => Parser.chainFrom _ part bound.tail (join left right))
              (hpart.quiet hcut) fun _ _ => quiet_chainFrom _ _

/-- **A chain is read alike**: the rounds that the look-ahead allows are enough. -/
theorem chain_follows :
    Follows cut (Parser.chain (joinsOf operators) part) (chain a operators part') where
  agrees h := by
    refine Agrees.bind (j := fun first rest => Parser.chainFrom _ part rest first rest)
      (k := fun first => rounds >>= fun n => chainFrom a operators part' n first)
      (hpart.agrees h) (fun _ hahead => ?_) fun _ _ => quiet_chainFrom _ _
    exact chainFrom_agrees a hpart hshrinks _ (Nat.lt_succ_of_le hahead.length_le) (Nat.le_refl _)
      hahead
  quiet hcut :=
    Quiet.bind (j := fun first rest => Parser.chainFrom _ part rest first rest) (hpart.quiet hcut)
      fun _ _ => quiet_chainFrom _ _

end Loop

end Chains

/-! ### Expressions -/

section Expressions

variable {cut : Option LexError} (a : Access) {group : Opened Expr} {group' : OnDemand Expr}

/-- Two readings one after another, of which the second takes a token that is not in the answer. -/
theorem Follows.followed {α β : Type} {p : Parser α} {q : OnDemand α} (h : Follows cut p q)
    {k : TokenKind} (hk : Expectation.Sought (.token k)) (f : α → β) :
    Follows cut (fun ts => p ts >>= fun r => Parser.expect cut k r.2 >>= fun t => .ok (f r.1, t.2))
      (q >>= fun x => expect a k >>= fun _ => pure (f x)) :=
  h.bind fun x => (expect_follows a hk).bind fun _ => follows_pure (f x)

theorem noRoom_follows {α : Type} (opener : TokenKind) :
    FollowsOpened cut opener (@Parser.noRoom α) (noRoom a opener) := by
  intro s l rest h hkind
  unfold noRoom ask
  rw [bind_apply, a.look_held h.head hkind]
  exact .failed trivial

private theorem parenthesized_follows {inner : Parser Expr} {inner' : OnDemand Expr}
    (h : Follows cut inner inner') :
    FollowsOpened cut .leftParen (Parser.parenthesized cut inner) (parenthesized a inner') := by
  intro s l rest hholds hkind
  obtain ⟨s', htaken, hahead⟩ := advance_holds a (· = .leftParen) hholds hkind
  unfold parenthesized
  rw [bind_apply, htaken]
  exact (h.followed a (k := .rightParen) (by simp [Expectation.Sought]) id).agrees hahead

private theorem operand_follows (hgroup : FollowsOpened cut .leftParen group group') :
    Follows cut (Parser.operand cut group) (operand a group') := by
  have hrefuse : Follows cut (Parser.refuse cut .operand) (refuse a .operand : OnDemand Expr) :=
    refuse_follows a trivial
  refine follows_of_peek a (fun {s l rest} hholds => ?_) hrefuse.agrees hrefuse.quiet
  obtain ⟨t, place⟩ := l
  cases t with
  | identifier x =>
      obtain ⟨s', hname, hahead⟩ := expectName_ahead a hholds.toAhead
      show Agrees cut _ (expectName a s >>= _)
      rw [hname]
      exact .read hahead
  | integer digits =>
      obtain ⟨s', htaken, hahead⟩ := advance_holds a (fun k => k = .integer ∨ k = .float) hholds
        (Or.inl rfl)
      show Agrees cut _ (advance a _ s >>= _)
      rw [htaken, Parser.operand]
      show Agrees cut _ (integer digits place s')
      unfold integer
      cases intOfLiteral? digits with
      | some n => exact .read hahead
      | none => exact .failed trivial
  | float literal =>
      obtain ⟨s', htaken, hahead⟩ := advance_holds a (fun k => k = .integer ∨ k = .float) hholds
        (Or.inr rfl)
      show Agrees cut _ (advance a _ s >>= _)
      rw [htaken]
      exact .read hahead
  | leftParen => exact hgroup hholds rfl
  | _ => exact hrefuse.agrees hholds.toAhead

private theorem truth_follows (hgroup : FollowsOpened cut .leftParen group group') :
    Follows cut (Parser.truth cut group) (truth a group') := by
  have hrefuse : Follows cut (Parser.refuse cut .truth) (refuse a .truth : OnDemand Expr) :=
    refuse_follows a trivial
  refine follows_of_peek a (fun {s l rest} hholds => ?_) hrefuse.agrees hrefuse.quiet
  obtain ⟨t, place⟩ := l
  cases t with
  | trueWord =>
      obtain ⟨s', htaken, hahead⟩ := advance_holds a (· = .trueWord) hholds rfl
      show Agrees cut _ (advance a _ s >>= _)
      rw [htaken]
      exact .read hahead
  | falseWord =>
      obtain ⟨s', htaken, hahead⟩ := advance_holds a (· = .falseWord) hholds rfl
      show Agrees cut _ (advance a _ s >>= _)
      rw [htaken]
      exact .read hahead
  | leftParen => exact hgroup hholds rfl
  | _ => exact hrefuse.agrees hholds.toAhead

private theorem sumOver_follows (hgroup : FollowsOpened cut .leftParen group group') {room : Nat}
    (hreads : ∀ p, Parser.Reads (group p) (Parser.Grouped room .sum)) :
    Follows cut (Parser.sumOver cut group) (sumOver a group') := by
  unfold Parser.sumOver sumOver
  rw [← joinsOf_sum, ← joinsOf_product]
  refine chain_follows a (chain_follows a (operand_follows a hgroup) ?_) ?_
  · exact shrinks_of_reads (Parser.operand_reads hreads)
  · rw [joinsOf_product]
    exact shrinks_of_reads (Parser.product_reads hreads)

theorem sum_follows : ∀ room, Follows cut (Parser.sum cut room) (sum a room)
  | 0 => sumOver_follows a (noRoom_follows a .leftParen) Parser.noRoom_reads
  | room + 1 =>
      sumOver_follows a (parenthesized_follows a (sum_follows room))
        (Parser.parenthesized_reads (Parser.sum_reads room))

theorem shown_follows (room : Nat) :
    Follows cut (Parser.joinedOnce Parser.compareJoins (Parser.sum cut room))
      (joinedOnce a compareOperators (sum a room)) := by
  rw [← joinsOf_compare]
  exact joinedOnce_follows a (sum_follows a room)

private theorem conditionOver_follows (hgroup : FollowsOpened cut .leftParen group group')
    {room : Nat} (hreads : ∀ p, Parser.Reads (group p) (Parser.Grouped room .condition)) :
    Follows cut (Parser.conditionOver cut group) (conditionOver a group') := by
  unfold Parser.conditionOver conditionOver
  rw [← joinsOf_logic, ← joinsOf_compare]
  refine chain_follows a (joinedOnce_follows a (truth_follows a hgroup)) ?_
  rw [joinsOf_compare]
  exact shrinks_of_reads (Parser.test_reads hreads)

theorem condition_follows : ∀ room, Follows cut (Parser.condition cut room) (condition a room)
  | 0 => conditionOver_follows a (noRoom_follows a .leftParen) Parser.noRoom_reads
  | room + 1 =>
      conditionOver_follows a (parenthesized_follows a (condition_follows room))
        (Parser.parenthesized_reads (Parser.condition_reads room))

end Expressions

end OnDemand

end LoopFree
