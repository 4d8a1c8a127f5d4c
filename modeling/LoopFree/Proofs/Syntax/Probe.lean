/-
How far the parser gets, probed at an integer literal.

A run of a parser on tokens among which an integer literal stands is put beside a run on a probe:
the tokens in front of the literal, the literal `0` in its place, and then a failure to read on.
Up to the literal the two runs do the same.  Either both end in front of it or at it, or the probe
takes the `0` and then runs into the failure, which shows that the literal was read where a number
may stand (`Probes`).  A literal that is out of range is refused there and nowhere else, and only
such a literal is refused (`Honest`).

`Meets` says this of a parser, and each way of putting parsers together keeps it.
-/
import LoopFree.Proofs.Syntax.Rounds

namespace LoopFree

/-- The error is about a token, which is another one than was expected or opens too deep a level. -/
def ParseError.Misplaced : ParseError → Prop
  | expected .. | unexpectedToken .. | tooDeep _ => True
  | _ => False

namespace Parser

/-! ### Probes

In front of the literal the two runs read the same tokens, so they cannot but agree.  Behind it
nothing is said of either: the failure has stopped the one, and what the other comes to is decided
by tokens that have no part in this.
-/

/-- An integer literal among tokens: its digits, its place, and the tokens behind it. -/
structure Spot where
  digits : String
  place : Position
  behind : List Lexeme

namespace Spot

/-- The literal and what is behind it. -/
def rest (k : Spot) : List Lexeme :=
  ⟨.integer k.digits, k.place⟩ :: k.behind

/-- The literal `0` in its place. -/
def probe (k : Spot) : List Lexeme :=
  [⟨.integer "0", k.place⟩]

end Spot

/-- The failure behind a probe, which no look at the tokens brings about. -/
def barrier : LexError :=
  .notEnoughTokens 0 0

section Probes

variable {α β : Type} {k : Spot} {u v : List Lexeme}

/-- If a literal is out of range in this, its digits are. -/
def Honest (r : Except ParseError α) : Prop :=
  ∀ digits place, r = .error (.numberOutOfRange digits place) → ¬ (Token.integer digits).InRange

/-- What has come of a run on tokens `u` and the literal behind them, and of one on the probe. -/
inductive Probes (k : Spot) (u : List Lexeme) :
    Except ParseError (α × List Lexeme) → Except ParseError (α × List Lexeme) → Prop
  /-- Neither has come to the literal. -/
  | before {x : α} {v : List Lexeme} (hv : v <:+ u) :
      Probes k u (.ok (x, v ++ k.rest)) (.ok (x, v ++ k.probe))
  /-- Both have read it, or one refused it. -/
  | taken {r r' : Except ParseError (α × List Lexeme)} (hhonest : Honest r)
      (hrefused : ¬ (Token.integer k.digits).InRange →
        r = .error (.numberOutOfRange k.digits k.place))
      (hquiet : Quiet barrier r') : Probes k u r r'
  /-- Both failed at a token. -/
  | failed {why why' : ParseError} (hwhy : why.Misplaced) (hwhy' : why'.Misplaced) :
      Probes k u (.error why) (.error why')

/-- On any tokens in front of the literal whose own literals are in range. -/
structure Keeps (k : Spot) (p p' : Parser α) : Prop where
  probes : ∀ {u : List Lexeme}, (∀ l ∈ u, l.token.InRange) →
    Probes k u (p (u ++ k.rest)) (p' (u ++ k.probe))
  honest : ∀ ts, Honest (p ts)

/-- The same, of parsers that may find no tokens left. -/
structure Meets (k : Spot) (p p' : Parser α) : Prop extends Keeps k p p' where
  quiet : Quiet barrier (p' [])

theorem Honest.ok (a : α) : Honest (.ok a) := by
  intro digits place h
  cases h

theorem Honest.error {why : ParseError} (h : why.Misplaced ∨ ∃ cause, why = .lexical cause) :
    Honest (.error why : Except ParseError α) := by
  rintro digits place ⟨⟩
  rcases h with h | ⟨cause, h⟩
  · exact h.elim
  · cases h

/-- An error is handed on. -/
theorem Honest.handOn {why : ParseError} (h : Honest (.error why : Except ParseError α)) :
    Honest (.error why : Except ParseError β) := by
  rintro digits place ⟨⟩
  exact h digits place rfl

variable {r r' : Except ParseError (α × List Lexeme)} {p p' : Parser α} {j i : α → Parser β}

theorem Honest.bind (h : Honest r) (hj : ∀ x ts, Honest (j x ts)) :
    Honest (r >>= fun a => j a.1 a.2) := by
  cases r with
  | ok a => exact hj a.1 a.2
  | error why => exact h.handOn

theorem Probes.mono (h : Probes k v r r') (hv : v <:+ u) : Probes k u r r' := by
  cases h with
  | before hw => exact .before (hw.trans hv)
  | taken hhonest hrefused hquiet => exact .taken hhonest hrefused hquiet
  | failed hwhy hwhy' => exact .failed hwhy hwhy'

/-- Two runs one after another.  Once the literal is read, what comes behind does not matter. -/
theorem Probes.bind (h : Probes k u r r')
    (hbefore : ∀ {x v}, r = .ok (x, v ++ k.rest) → v <:+ u →
      Probes k v (j x (v ++ k.rest)) (i x (v ++ k.probe)))
    (hhonest : ∀ x ts, Honest (j x ts)) (hquiet : ∀ x, Quiet barrier (i x [])) :
    Probes k u (r >>= fun a => j a.1 a.2) (r' >>= fun a => i a.1 a.2) := by
  cases h with
  | before hv => exact (hbefore rfl hv).mono hv
  | taken hr hrefused hr' =>
      refine .taken (hr.bind hhonest) (fun hout => ?_) (hr'.bind fun x _ => hquiet x)
      rw [hrefused hout]
      rfl
  | failed hwhy hwhy' => exact .failed hwhy hwhy'

private theorem inRange_suffix (hv : v <:+ u) (hu : ∀ l ∈ u, l.token.InRange) :
    ∀ l ∈ v, l.token.InRange :=
  fun l hl => hu l (hv.subset hl)

theorem Keeps.bind (h : Keeps k p p') (hj : ∀ x, Meets k (j x) (i x)) :
    Keeps k (fun ts => p ts >>= fun a => j a.1 a.2) (fun ts => p' ts >>= fun a => i a.1 a.2) where
  probes hu := (h.probes hu).bind (fun _ hv => (hj _).probes (inRange_suffix hv hu))
    (fun x => (hj x).honest) fun x => (hj x).quiet
  honest ts := (h.honest ts).bind fun x => (hj x).honest

theorem Meets.bind (h : Meets k p p') (hj : ∀ x, Meets k (j x) (i x)) :
    Meets k (fun ts => p ts >>= fun a => j a.1 a.2) (fun ts => p' ts >>= fun a => i a.1 a.2) where
  toKeeps := h.toKeeps.bind hj
  quiet := h.quiet.bind fun x _ => (hj x).quiet

private theorem meets_pure (x : α) : Meets k (fun ts => .ok (x, ts)) (fun ts => .ok (x, ts)) where
  probes _ := .before (List.suffix_refl _)
  honest _ := .ok _
  quiet := Or.inr ⟨x, rfl⟩

end Probes

/-! ### Tokens -/

section Tokens

variable {α : Type} {k : Spot} {cut : Option LexError}

private theorem refuse_honest (cut : Option LexError) (what : Expectation) (ts : List Lexeme) :
    Honest (@refuse α cut what ts) := by
  cases ts with
  | nil =>
      cases cut with
      | none =>
          rintro digits place ⟨⟩
      | some cause => exact .error (Or.inr ⟨cause, rfl⟩)
  | cons l rest => exact .error (Or.inl trivial)

private theorem expect_meets {kind : TokenKind} (hkind : kind ≠ .integer) :
    Meets k (expect cut kind) (expect (some barrier) kind) where
  probes {u} _ := by
    cases u with
    | nil =>
        show Probes k [] (if TokenKind.integer = kind then _ else _)
          (if TokenKind.integer = kind then _ else _)
        rw [if_neg hkind.symm, if_neg hkind.symm]
        exact .failed trivial trivial
    | cons l u =>
        show Probes k _ (if l.token.kind = kind then _ else _)
          (if l.token.kind = kind then _ else _)
        by_cases hl : l.token.kind = kind
        · rw [if_pos hl, if_pos hl]
          exact .before (List.suffix_cons l u)
        · rw [if_neg hl, if_neg hl]
          exact .failed trivial trivial
  honest ts := by
    cases ts with
    | nil => exact refuse_honest cut (.token kind) []
    | cons l rest =>
        rw [expect]
        by_cases hl : l.token.kind = kind
        · rw [if_pos hl]
          exact .ok _
        · rw [if_neg hl]
          exact refuse_honest cut _ _
  quiet := Or.inl rfl

end Tokens

/-! ### Chains of operators -/

section Chains

variable {k : Spot} {joins : Joins} {part part' : Parser Expr}

/-- No literal is an operator of the table. -/
def NoLiteral (joins : Joins) : Prop :=
  ∀ digits, joins (.integer digits) = none

private theorem joining_meets (hjoins : NoLiteral joins) :
    Meets k (joining joins) (joining joins) where
  probes {u} _ := by
    cases u with
    | nil =>
        have hnone : ∀ {digits place} {behind : List Lexeme},
            joining joins (⟨.integer digits, place⟩ :: behind)
              = .ok (none, ⟨.integer digits, place⟩ :: behind) := by
          intro digits place behind
          rw [joining, hjoins]
        rw [List.nil_append, List.nil_append, Spot.rest, Spot.probe, hnone, hnone]
        exact .before (List.suffix_refl [])
    | cons l u =>
        rw [List.cons_append, List.cons_append, joining, joining]
        cases joins l.token with
        | none => exact .before (List.suffix_refl (l :: u))
        | some join => exact .before (List.suffix_cons l u)
  honest ts := by
    cases ts with
    | nil => exact .ok _
    | cons l rest =>
        rw [joining]
        cases joins l.token <;> exact .ok _
  quiet := Or.inr ⟨none, rfl⟩

private theorem chainFrom_honest (hpart : ∀ ts, Honest (part ts)) :
    ∀ (bound : List Lexeme) (left : Expr) (ts : List Lexeme),
      Honest (chainFrom joins part bound left ts) := by
  intro bound
  induction bound with
  | nil =>
      intro left ts
      rw [chainFrom.eq_def]
      exact .ok _
  | cons b bound ih =>
      intro left ts
      cases ts with
      | nil => exact .ok _
      | cons l rest =>
          rw [chainFrom]
          cases joins l.token with
          | none => exact .ok _
          | some join =>
              exact (hpart rest).bind
                (j := fun right => chainFrom joins part bound (join left right))
                fun right ts => ih (join left right) ts

variable (hpart : Meets k part part') (hjoins : NoLiteral joins)
include hpart hjoins

private theorem joinedOnce_meets : Meets k (joinedOnce joins part) (joinedOnce joins part') := by
  have hright : ∀ (left : Expr) (found : Option (Expr → Expr → Expr)),
      Meets k (goOn part (fun e ts => .ok (e, ts)) left found)
        (goOn part' (fun e ts => .ok (e, ts)) left found) := by
    intro left found
    cases found with
    | none => exact meets_pure left
    | some join => exact hpart.bind fun right => meets_pure (join left right)
  rw [funext joinedOnce_eq, funext joinedOnce_eq]
  exact hpart.bind fun left => (joining_meets hjoins).bind (hright left)

private theorem chainFrom_probes (n : Nat) : ∀ {u bound bound' : List Lexeme} {left : Expr},
    u.length < n → (∀ l ∈ u, l.token.InRange) → (u ++ k.rest).length ≤ bound.length →
    (u ++ k.probe).length ≤ bound'.length →
    Probes k u (chainFrom joins part bound left (u ++ k.rest))
      (chainFrom joins part' bound' left (u ++ k.probe)) := by
  induction n with
  | zero =>
      intro u bound bound' left hn
      exact absurd hn (Nat.not_lt_zero _)
  | succ n ih =>
      intro u bound bound' left hn hu hbound hbound'
      rw [chainFrom_eq left hbound, chainFrom_eq left hbound']
      refine ((joining_meets hjoins).probes hu).bind (fun {found v} htaken hv => ?_)
        (fun found ts => ?_) fun found => ?_
      · cases found with
        | none => exact .before (List.suffix_refl v)
        | some join =>
            have hlt := length_lt_of_joining htaken
            rw [List.length_append, List.length_append] at hlt
            have hv' := inRange_suffix hv hu
            refine Probes.bind (j := fun right => chainFrom joins part bound.tail (join left right))
              (i := fun right => chainFrom joins part' bound'.tail (join left right))
              (hpart.probes hv') (fun {right w} _ hw => ?_)
              (fun right ts => chainFrom_honest hpart.honest _ _ ts)
              fun right => quiet_chainFrom _ _
            have hle := hw.length_le
            rw [List.length_append] at hbound hbound'
            refine ih (by omega) (inRange_suffix hw hv') ?_ ?_
            · rw [List.length_append, List.length_tail]
              omega
            · rw [List.length_append, List.length_tail]
              omega
      · cases found with
        | none => exact .ok _
        | some join =>
            exact (hpart.honest ts).bind
              (j := fun right => chainFrom joins part bound.tail (join left right))
              fun right ts => chainFrom_honest hpart.honest _ _ ts
      · cases found with
        | none => exact Or.inr ⟨left, rfl⟩
        | some join =>
            exact hpart.quiet.bind
              (j := fun right => chainFrom joins part' bound'.tail (join left right))
              fun right _ => quiet_chainFrom _ _

private theorem chain_meets : Meets k (chain joins part) (chain joins part') where
  probes hu := by
    refine Probes.bind (j := fun first rest => chainFrom joins part rest first rest)
      (i := fun first rest => chainFrom joins part' rest first rest) (hpart.probes hu)
      (fun {first v} _ hv => ?_) (fun first ts => chainFrom_honest hpart.honest _ _ ts)
      fun first => quiet_chainFrom _ _
    exact chainFrom_probes hpart hjoins _ (Nat.lt_succ_self _) (inRange_suffix hv hu)
      (Nat.le_refl _) (Nat.le_refl _)
  honest ts :=
    (hpart.honest ts).bind (j := fun first rest => chainFrom joins part rest first rest)
      fun first ts => chainFrom_honest hpart.honest _ _ ts
  quiet :=
    hpart.quiet.bind (j := fun first rest => chainFrom joins part' rest first rest)
      fun first _ => quiet_chainFrom _ _

end Chains

/-! ### Expressions -/

section Expressions

variable {k : Spot} {cut : Option LexError} {group group' : Opened Expr}

/-- What goes on behind a token that opens a level of nesting, which is in front of the literal. -/
def KeepsOpened {α : Type} (k : Spot) (p p' : Opened α) : Prop :=
  ∀ place, Keeps k (p place) (p' place)

private theorem noRoom_keeps {α : Type} : KeepsOpened k (@noRoom α) noRoom := by
  intro place
  exact ⟨fun _ => .failed trivial trivial, fun _ => .error (Or.inl trivial)⟩

/-- A parser and then a token, which is left out of the answer. -/
theorem Meets.followed {α β : Type} {p p' : Parser α} (h : Meets k p p') {kind : TokenKind}
    (hkind : kind ≠ .integer) (f : α → β) :
    Meets k (fun ts => p ts >>= fun r => expect cut kind r.2 >>= fun t => .ok (f r.1, t.2))
      (fun ts => p' ts >>= fun r => expect (some barrier) kind r.2 >>= fun t =>
        .ok (f r.1, t.2)) :=
  h.bind fun x => (expect_meets hkind).bind fun _ => meets_pure (f x)

private theorem parenthesized_keeps {inner inner' : Parser Expr} (h : Meets k inner inner') :
    KeepsOpened k (parenthesized cut inner) (parenthesized (some barrier) inner') :=
  fun _ => (h.followed (fun heq => by cases heq) id).toKeeps

/-- A literal stands for no integer if it is out of range. -/
theorem intOfLiteral?_eq_none_iff {digits : String} :
    intOfLiteral? digits = none ↔ ¬ (Token.integer digits).InRange := by
  constructor
  · intro h hin
    rw [intOfLiteral?_of_inRange hin] at h
    cases h
  · intro h
    unfold intOfLiteral?
    exact if_neg h

/-- **Where a number may stand, the literal is read, or refused because it is out of range.** -/
theorem literal_probes :
    Probes k [] (operand cut group k.rest) (operand (some barrier) group' k.probe) := by
  have hzero : operand (some barrier) group' k.probe = .ok (.int (Int64.ofNat 0), []) := rfl
  rw [hzero, Spot.rest, operand]
  cases hint : intOfLiteral? k.digits with
  | some n =>
      refine .taken (.ok _) (fun hout => ?_) (Or.inr ⟨_, rfl⟩)
      rw [intOfLiteral?_eq_none_iff.mpr hout] at hint
      cases hint
  | none =>
      refine .taken ?_ (fun _ => rfl) (Or.inr ⟨_, rfl⟩)
      rintro digits place ⟨⟩
      exact intOfLiteral?_eq_none_iff.mp hint

private theorem operand_meets (hgroup : KeepsOpened k group group') :
    Meets k (operand cut group) (operand (some barrier) group') where
  probes {u} hu := by
    cases u with
    | nil => exact literal_probes
    | cons l u =>
        have hbehind := List.suffix_cons l u
        obtain ⟨t, place⟩ := l
        cases t with
        | identifier x => exact .before hbehind
        | integer digits =>
            have hin := intOfLiteral?_of_inRange (hu _ (List.mem_cons_self ..))
            rw [List.cons_append, List.cons_append, operand, operand, hin]
            exact .before hbehind
        | float literal => exact .before hbehind
        | leftParen =>
            exact ((hgroup place).probes (inRange_suffix hbehind hu)).mono hbehind
        | _ => exact .failed trivial trivial
  honest ts := by
    cases ts with
    | nil => exact refuse_honest cut .operand []
    | cons l rest =>
        obtain ⟨t, place⟩ := l
        cases t with
        | identifier x => exact .ok _
        | integer digits =>
            rw [operand]
            cases hint : intOfLiteral? digits with
            | some n => exact .ok _
            | none =>
                rintro digits' place' ⟨⟩
                exact intOfLiteral?_eq_none_iff.mp hint
        | float literal => exact .ok _
        | leftParen => exact (hgroup place).honest rest
        | _ => exact .error (Or.inl trivial)
  quiet := Or.inl rfl

private theorem truth_meets (hgroup : KeepsOpened k group group') :
    Meets k (truth cut group) (truth (some barrier) group') where
  probes {u} hu := by
    cases u with
    | nil => exact .failed trivial trivial
    | cons l u =>
        have hbehind := List.suffix_cons l u
        obtain ⟨t, place⟩ := l
        cases t with
        | trueWord | falseWord => exact .before hbehind
        | leftParen =>
            exact ((hgroup place).probes (inRange_suffix hbehind hu)).mono hbehind
        | _ => exact .failed trivial trivial
  honest ts := by
    cases ts with
    | nil => exact refuse_honest cut .truth []
    | cons l rest =>
        obtain ⟨t, place⟩ := l
        cases t with
        | trueWord | falseWord => exact .ok _
        | leftParen => exact (hgroup place).honest rest
        | _ => exact .error (Or.inl trivial)
  quiet := Or.inl rfl

private theorem sumOver_meets (hgroup : KeepsOpened k group group') :
    Meets k (sumOver cut group) (sumOver (some barrier) group') :=
  chain_meets (chain_meets (operand_meets hgroup) fun _ => rfl) fun _ => rfl

private theorem sum_meets : ∀ room, Meets k (sum cut room) (sum (some barrier) room)
  | 0 => sumOver_meets noRoom_keeps
  | room + 1 => sumOver_meets (parenthesized_keeps (sum_meets room))

private theorem conditionOver_meets (hgroup : KeepsOpened k group group') :
    Meets k (conditionOver cut group) (conditionOver (some barrier) group') :=
  chain_meets (joinedOnce_meets (truth_meets hgroup) fun _ => rfl) fun _ => rfl

private theorem condition_meets :
    ∀ room, Meets k (condition cut room) (condition (some barrier) room)
  | 0 => conditionOver_meets noRoom_keeps
  | room + 1 => conditionOver_meets (parenthesized_keeps (condition_meets room))

end Expressions

/-! ### One statement -/

section Statement

variable {k : Spot} {cut : Option LexError} {e e' : Parser Expr} {p p' : StmtParser}

private theorem closed_meets (he : Meets k e e') (make : Expr → Stmt) :
    Meets k (closed cut e make) (closed (some barrier) e' make) :=
  he.followed (fun heq => by cases heq) make

/-- A statement behind the token that opens it. -/
theorem Honest.found {r : Except ParseError (Stmt × List Lexeme)} (h : Honest r)
    (ts : List Lexeme) : Honest ((some <$> r) >>= orLeave ts) := by
  cases r with
  | ok a => exact .ok _
  | error why => exact h.handOn

private theorem Probes.found {u : List Lexeme} {r r' : Except ParseError (Stmt × List Lexeme)}
    (h : Probes k u r r') (ts ts' : List Lexeme) :
    Probes k u ((some <$> r) >>= orLeave ts) ((some <$> r') >>= orLeave ts') := by
  cases h with
  | before hv => exact .before hv
  | taken hhonest hrefused hquiet =>
      refine .taken (hhonest.found ts) (fun hout => ?_) ?_
      · rw [hrefused hout]
        rfl
      · rcases hquiet with rfl | ⟨x, rfl⟩
        · exact Or.inl rfl
        · exact Or.inr ⟨some x, rfl⟩
  | failed hwhy hwhy' => exact .failed hwhy hwhy'

/-- What is printed may be a comparison. -/
theorem shown_meets (he : Meets k e e') :
    Meets k (joinedOnce compareJoins e) (joinedOnce compareJoins e') :=
  joinedOnce_meets he fun _ => rfl

private theorem statementOver_meets (he : Meets k e e') {ifs ifs' blocks blocks' : Opened Stmt}
    (hifs : KeepsOpened k ifs ifs') (hblocks : KeepsOpened k blocks blocks') :
    Meets k (orNone (statementOver cut e ifs blocks))
      (orNone (statementOver (some barrier) e' ifs' blocks')) where
  probes {u} hu := by
    have hshown := shown_meets he
    cases u with
    | nil => exact .before (List.suffix_refl [])
    | cons l u =>
        have hbehind := List.suffix_cons l u
        have hu' := inRange_suffix hbehind hu
        obtain ⟨t, place⟩ := l
        cases t with
        | printWord =>
            exact (((closed_meets hshown .print).probes hu').found _ _).mono hbehind
        | identifier x =>
            cases u with
            | nil => exact .before (List.suffix_refl _)
            | cons m u =>
                have hbehind' := List.suffix_cons m u
                obtain ⟨t, place'⟩ := m
                cases t with
                | assign =>
                    exact (((closed_meets he (.assign x)).probes
                      (inRange_suffix hbehind' hu')).found _ _).mono (hbehind'.trans hbehind)
                | _ => exact .before (List.suffix_refl _)
        | semicolon => exact .before hbehind
        | ifWord => exact (((hifs place).probes hu').found _ _).mono hbehind
        | leftBrace => exact (((hblocks place).probes hu').found _ _).mono hbehind
        | _ => exact .before (List.suffix_refl _)
  honest ts := by
    have hshown := shown_meets he
    cases ts with
    | nil => exact .ok _
    | cons l rest =>
        obtain ⟨t, place⟩ := l
        cases t with
        | printWord => exact ((closed_meets hshown .print).honest rest).found _
        | identifier x =>
            cases rest with
            | nil =>
                cases cut with
                | none => exact .ok _
                | some cause => exact .error (Or.inr ⟨cause, rfl⟩)
            | cons m rest =>
                obtain ⟨t, place'⟩ := m
                cases t with
                | assign => exact ((closed_meets he (.assign x)).honest rest).found _
                | _ => exact .ok _
        | ifWord => exact ((hifs place).honest rest).found _
        | leftBrace => exact ((hblocks place).honest rest).found _
        | _ => exact .ok _
  quiet := Or.inr ⟨none, rfl⟩

private theorem orStray_meets (statement : Option Stmt) :
    Meets k (orStray cut statement) (orStray (some barrier) statement) := by
  cases statement with
  | some s => exact meets_pure s
  | none =>
      refine ⟨⟨fun {u} _ => ?_, fun ts => ?_⟩, Or.inl rfl⟩
      · cases u <;> exact .failed trivial trivial
      · cases ts with
        | nil => exact refuse_honest cut .statement []
        | cons l rest => exact .error (Or.inl trivial)

private theorem required_meets (hp : Meets k (orNone p) (orNone p')) :
    Meets k (required cut p) (required (some barrier) p') := by
  rw [funext (required_eq p), funext (required_eq p')]
  exact hp.bind orStray_meets

private theorem ifThen_keeps (he : Meets k e e') (hp : Meets k (orNone p) (orNone p')) :
    KeepsOpened k (ifThen cut e p) (ifThen (some barrier) e' p') := by
  have hleft : Meets k (expect cut .leftParen) (expect (some barrier) .leftParen) :=
    expect_meets fun heq => by cases heq
  have hright : Meets k (expect cut .rightParen) (expect (some barrier) .rightParen) :=
    expect_meets fun heq => by cases heq
  exact fun _ => (hleft.bind fun _ => he.bind fun c => hright.bind fun _ =>
    (required_meets hp).bind fun body => meets_pure (Stmt.ifThen c body)).toKeeps

end Statement

/-! ### Statements one after another -/

section Statements

variable {k : Spot} {cut : Option LexError} {p p' : StmtParser} {room : Nat}
  (hp : Meets k (orNone p) (orNone p')) (hnil : p [] = .ok none) (hnil' : p' [] = .ok none)
  (hreads : ReadsStmt p (StmtWithin room)) (hreads' : ReadsStmt p' (StmtWithin room))

include hp hnil hreads

private theorem statements_honest (n : Nat) : ∀ {ts : List Lexeme}, ts.length < n →
    Honest (statements p ts) := by
  induction n with
  | zero =>
      intro ts hn
      exact absurd hn (Nat.not_lt_zero _)
  | succ n ih =>
      intro ts hn
      rw [statements_eq hnil hreads]
      have hfirst := hp.honest ts
      cases hfound : orNone p ts with
      | error why =>
          rw [hfound] at hfirst
          exact hfirst.handOn
      | ok r =>
          obtain ⟨found, rest⟩ := r
          cases found with
          | none => exact .ok _
          | some s =>
              have hlt := length_lt_of_orNone hreads hfound
              exact (ih (Nat.lt_of_lt_of_le hlt (Nat.le_of_lt_succ hn))).bind
                (j := fun ss ts => .ok (s :: ss, ts)) fun ss ts => .ok _

include hnil' hreads'

private theorem statements_probes (n : Nat) : ∀ {u : List Lexeme}, u.length < n →
    (∀ l ∈ u, l.token.InRange) →
    Probes k u (statements p (u ++ k.rest)) (statements p' (u ++ k.probe)) := by
  induction n with
  | zero =>
      intro u hn
      exact absurd hn (Nat.not_lt_zero _)
  | succ n ih =>
      intro u hn hu
      rw [statements_eq hnil hreads, statements_eq hnil' hreads']
      refine (hp.probes hu).bind (fun {found v} hfound hv => ?_) (fun found ts => ?_)
        fun found => ?_
      · cases found with
        | none => exact .before (List.suffix_refl v)
        | some s =>
            have hlt := length_lt_of_orNone hreads hfound
            rw [List.length_append, List.length_append] at hlt
            exact (ih (by omega) (inRange_suffix hv hu)).bind (j := fun ss ts => .ok (s :: ss, ts))
              (i := fun ss ts => .ok (s :: ss, ts)) (fun _ _ => .before (List.suffix_refl _))
              (fun _ _ => .ok _) fun ss => Or.inr ⟨_, rfl⟩
      · cases found with
        | none => exact .ok _
        | some s =>
            exact (statements_honest hp hnil hreads _ (Nat.lt_succ_self _)).bind
              (j := fun ss ts => .ok (s :: ss, ts)) fun ss ts => .ok _
      · cases found with
        | none => exact Or.inr ⟨[], rfl⟩
        | some s =>
            exact (quiet_statements hnil').bind (j := fun ss ts => .ok (s :: ss, ts))
              fun ss _ => Or.inr ⟨_, rfl⟩

private theorem statements_meets : Meets k (statements p) (statements p') where
  probes hu := statements_probes hp hnil hnil' hreads hreads' _ (Nat.lt_succ_self _) hu
  honest _ := statements_honest hp hnil hreads _ (Nat.lt_succ_self _)
  quiet := quiet_statements hnil'

private theorem block_keeps : KeepsOpened k (block cut p) (block (some barrier) p') :=
  fun _ => ((statements_meets hp hnil hnil' hreads hreads').followed
    (fun heq => by cases heq) Stmt.block).toKeeps

private theorem toEnd_meets : Meets k (toEnd cut p) (toEnd (some barrier) p') := by
  refine (statements_meets hp hnil hnil' hreads hreads').bind fun ss => ?_
  refine ⟨⟨fun {u} _ => ?_, fun ts => ?_⟩, Or.inl rfl⟩
  · cases u <;> exact .failed trivial trivial
  · cases ts with
    | nil =>
        cases cut with
        | none => exact .ok _
        | some cause => exact .error (Or.inr ⟨cause, rfl⟩)
    | cons l rest => exact .error (Or.inl trivial)

end Statements

section Program

variable (k : Spot) (cut : Option LexError)

private theorem statement_meets : ∀ room,
    Meets k (orNone (statement cut room)) (orNone (statement (some barrier) room))
  | 0 => statementOver_meets (sum_meets 0) noRoom_keeps noRoom_keeps
  | room + 1 =>
      have hbody := statement_meets room
      statementOver_meets (sum_meets (room + 1)) (ifThen_keeps (condition_meets room) hbody)
        (block_keeps hbody (statement_nil room) (statement_nil room) (statement_reads room)
          (statement_reads room))

/-- **A program is probed at any literal** in front of which the literals are in range. -/
theorem program_meets :
    Meets k (toEnd cut (statement cut maxNesting))
      (toEnd (some barrier) (statement (some barrier) maxNesting)) :=
  toEnd_meets (statement_meets k cut maxNesting) (statement_nil _) (statement_nil _)
    (statement_reads _) (statement_reads _)

end Program

end Parser

end LoopFree
