/-
The parser and the places of tokens.

The parser never looks at where a token stands.  It hands the places on, into its errors and
with the tokens it leaves, and decides nothing by them.  So if all tokens are moved, and the
failure that cut them off with them, the parser does what it did, and the places in what it
answers are moved likewise.

`Moves f p q` says that `q` does on moved tokens what `p` does on the tokens.  It holds of every
parser and itself, with the failure moved; a lemma for each way of combining parsers carries it
from the tokens up to programs, along the levels of nesting.
-/
import LoopFree.Syntax.Parser

namespace LoopFree

/-! ### Moving

The parser copies places from tokens to errors and never looks at them.  Moving the tokens by any
function whatever, and asking for the same answer with its places moved, says just this.
-/

section Moved

variable (f : Position → Position)

/-- The token at another place. -/
def Lexeme.moved (l : Lexeme) : Lexeme :=
  { l with position := f l.position }

/-- The error about another place, if it is about one. -/
def LexError.moved : LexError → LexError
  | unexpectedCharacter c p => unexpectedCharacter c (f p)
  | malformedExponent literal p => malformedExponent literal (f p)
  | why => why

/-- The error about another place, if it is about one. -/
def ParseError.moved : ParseError → ParseError
  | lexical why => lexical (why.moved f)
  | expected what found p => expected what found (f p)
  | unexpectedToken t p => unexpectedToken t (f p)
  | numberOutOfRange digits p => numberOutOfRange digits (f p)
  | tooDeep p => tooDeep (f p)
  | unexpectedEnd what => unexpectedEnd what

/-- An answer with its places moved, where `move` moves those of a result. -/
def movedAnswer {α : Type} (move : α → α) : Except ParseError α → Except ParseError α
  | .ok a => .ok (move a)
  | .error why => .error (why.moved f)

/-- A result with the tokens behind it moved. -/
def movedRest {α : Type} (r : α × List Lexeme) : α × List Lexeme :=
  (r.1, r.2.map (Lexeme.moved f))

/-- Two steps move when each does. -/
theorem movedAnswer_bind {α β : Type} {x x' : Except ParseError α} {move : α → α} {move' : β → β}
    {k k' : α → Except ParseError β} (hx : x' = movedAnswer f move x)
    (hk : ∀ a, k' (move a) = movedAnswer f move' (k a)) :
    x' >>= k' = movedAnswer f move' (x >>= k) := by
  subst hx
  cases x with
  | ok a => exact hk a
  | error why => rfl

end Moved

namespace Parser

/-- On moved tokens `q` answers what `p` answers, with its places moved. -/
def Moves {α : Type} (f : Position → Position) (p q : Parser α) : Prop :=
  ∀ ts, q (ts.map (Lexeme.moved f)) = movedAnswer f (movedRest f) (p ts)

/-- The same, of what goes on behind a token that opens a level of nesting. -/
def MovesOpened {α : Type} (f : Position → Position) (p q : Opened α) : Prop :=
  ∀ place, Moves f (p place) (q (f place))

/-- The same, of parsers that may find no statement. -/
def MovesStmt (f : Position → Position) (p q : StmtParser) : Prop :=
  ∀ ts, q (ts.map (Lexeme.moved f)) = movedAnswer f (Option.map (movedRest f)) (p ts)

variable (f : Position → Position) (cut : Option LexError)

private theorem refuse_moves {α : Type} (what : Expectation) :
    Moves f (@refuse α cut what) (refuse (cut.map (LexError.moved f)) what) := by
  intro ts
  cases ts with
  | nil => cases cut <;> rfl
  | cons l rest => rfl

private theorem expect_moves (k : TokenKind) :
    Moves f (expect cut k) (expect (cut.map (LexError.moved f)) k) := by
  intro ts
  cases ts with
  | nil => exact refuse_moves f cut (.token k) []
  | cons l rest =>
      rw [List.map_cons, expect, expect]
      by_cases hk : l.token.kind = k
      · rw [if_pos hk, if_pos (show (l.moved f).token.kind = k from hk)]
        rfl
      · rw [if_neg hk, if_neg (show (l.moved f).token.kind ≠ k from hk)]
        rfl

private theorem noRoom_moves {α : Type} : MovesOpened f (@noRoom α) noRoom :=
  fun _ _ => rfl

/-! ### Expressions -/

section Expressions

variable {f} {cut} {joins : Joins} {part part' : Parser Expr} {group group' : Opened Expr}

private theorem parenthesized_moves (h : Moves f part part') :
    MovesOpened f (parenthesized cut part) (parenthesized (cut.map (LexError.moved f)) part') :=
  fun _ ts => movedAnswer_bind f (h ts) fun (_, ts) =>
    movedAnswer_bind f (expect_moves f cut .rightParen ts) fun _ => rfl

private theorem chainFrom_moves (h : Moves f part part') : ∀ (bound : List Lexeme) (left : Expr),
    Moves f (chainFrom joins part bound left)
      (chainFrom joins part' (bound.map (Lexeme.moved f)) left) := by
  intro bound
  induction bound with
  | nil =>
      intro left ts
      rw [List.map_nil, chainFrom.eq_def, chainFrom.eq_def]
      rfl
  | cons b bound ih =>
      intro left ts
      cases ts with
      | nil => rfl
      | cons l rest =>
          have htoken : (l.moved f).token = l.token := rfl
          rw [List.map_cons, List.map_cons, chainFrom, chainFrom, htoken]
          cases joins l.token with
          | none => rfl
          | some join =>
              exact movedAnswer_bind f (h rest) fun (right, rest) => ih (join left right) rest

private theorem chain_moves (h : Moves f part part') :
    Moves f (chain joins part) (chain joins part') :=
  fun ts => movedAnswer_bind f (h ts) fun (first, rest) => chainFrom_moves h rest first rest

private theorem joinedOnce_moves (h : Moves f part part') :
    Moves f (joinedOnce joins part) (joinedOnce joins part') := by
  refine fun ts => movedAnswer_bind f (h ts) fun (left, rest) => ?_
  have hbound : chainFrom joins part' ((rest.take 1).map (Lexeme.moved f)) left _ = _ :=
    chainFrom_moves h (rest.take 1) left rest
  rw [List.map_take] at hbound
  exact hbound

private theorem operand_moves (h : MovesOpened f group group') :
    Moves f (operand cut group) (operand (cut.map (LexError.moved f)) group') := by
  intro ts
  cases ts with
  | nil => exact refuse_moves f cut .operand []
  | cons l rest =>
      obtain ⟨t, p⟩ := l
      cases t with
      | integer s =>
          simp only [List.map_cons, Lexeme.moved, operand]
          cases intOfLiteral? s <;> rfl
      | leftParen => exact h p rest
      | _ => rfl

private theorem sumOver_moves (h : MovesOpened f group group') :
    Moves f (sumOver cut group) (sumOver (cut.map (LexError.moved f)) group') :=
  chain_moves (chain_moves (operand_moves h))

private theorem sum_moves : ∀ room, Moves f (sum cut room) (sum (cut.map (LexError.moved f)) room)
  | 0 => sumOver_moves (noRoom_moves f)
  | room + 1 => sumOver_moves (parenthesized_moves (sum_moves room))

private theorem truth_moves (h : MovesOpened f group group') :
    Moves f (truth cut group) (truth (cut.map (LexError.moved f)) group') := by
  intro ts
  cases ts with
  | nil => exact refuse_moves f cut .truth []
  | cons l rest =>
      obtain ⟨t, p⟩ := l
      cases t with
      | leftParen => exact h p rest
      | _ => rfl

private theorem conditionOver_moves (h : MovesOpened f group group') :
    Moves f (conditionOver cut group) (conditionOver (cut.map (LexError.moved f)) group') :=
  chain_moves (joinedOnce_moves (truth_moves h))

private theorem condition_moves :
    ∀ room, Moves f (condition cut room) (condition (cut.map (LexError.moved f)) room)
  | 0 => conditionOver_moves (noRoom_moves f)
  | room + 1 => conditionOver_moves (parenthesized_moves (condition_moves room))

end Expressions

/-! ### Statements -/

section Statements

variable {f} {cut} {e e' : Parser Expr} {p p' : StmtParser} {ifs ifs' blocks blocks' : Opened Stmt}

private theorem closed_moves (h : Moves f e e') (make : Expr → Stmt) :
    Moves f (closed cut e make) (closed (cut.map (LexError.moved f)) e' make) :=
  fun ts => movedAnswer_bind f (h ts) fun (_, ts) =>
    movedAnswer_bind f (expect_moves f cut .semicolon ts) fun _ => rfl

private theorem required_moves (h : MovesStmt f p p') :
    Moves f (required cut p) (required (cut.map (LexError.moved f)) p') := by
  refine fun ts => movedAnswer_bind f (h ts) fun found => ?_
  cases found with
  | some r => rfl
  | none =>
      cases ts with
      | nil => cases cut <;> rfl
      | cons l rest => rfl

private theorem ifThen_moves (he : Moves f e e') (hp : MovesStmt f p p') :
    MovesOpened f (ifThen cut e p) (ifThen (cut.map (LexError.moved f)) e' p') :=
  fun _ ts => movedAnswer_bind f (expect_moves f cut .leftParen ts) fun (_, ts) =>
    movedAnswer_bind f (he ts) fun (_, ts) =>
      movedAnswer_bind f (expect_moves f cut .rightParen ts) fun (_, ts) =>
        movedAnswer_bind f (required_moves hp ts) fun _ => rfl

private theorem statementsFrom_moves (h : MovesStmt f p p') : ∀ bound : List Lexeme,
    Moves f (statementsFrom p bound) (statementsFrom p' (bound.map (Lexeme.moved f))) := by
  intro bound
  induction bound with
  | nil =>
      intro ts
      rfl
  | cons b bound ih =>
      refine fun ts => movedAnswer_bind f (h ts) fun found => ?_
      cases found with
      | none => rfl
      | some r => exact movedAnswer_bind f (ih r.2) fun _ => rfl

private theorem statements_moves (h : MovesStmt f p p') : Moves f (statements p) (statements p') :=
  fun ts => statementsFrom_moves h ts ts

private theorem block_moves (h : MovesStmt f p p') :
    MovesOpened f (block cut p) (block (cut.map (LexError.moved f)) p') :=
  fun _ ts => movedAnswer_bind f (statements_moves h ts) fun (_, ts) =>
    movedAnswer_bind f (expect_moves f cut .rightBrace ts) fun _ => rfl

/-- What is found behind the token that opens it is moved as it is. -/
theorem Moves.found {q q' : Parser Stmt} (h : Moves f q q') (ts : List Lexeme) :
    some <$> q' (ts.map (Lexeme.moved f))
      = movedAnswer f (Option.map (movedRest f)) (some <$> q ts) := by
  rw [h ts]
  cases q ts <;> rfl

private theorem statementOver_moves (he : Moves f e e') (hif : MovesOpened f ifs ifs')
    (hblock : MovesOpened f blocks blocks') :
    MovesStmt f (statementOver cut e ifs blocks)
      (statementOver (cut.map (LexError.moved f)) e' ifs' blocks') := by
  intro ts
  cases ts with
  | nil => rfl
  | cons l rest =>
      obtain ⟨t, place⟩ := l
      cases t with
      | printWord =>
          have hshown : Moves f (joinedOnce compareJoins e) (joinedOnce compareJoins e') :=
            joinedOnce_moves he
          exact (closed_moves hshown .print).found rest
      | ifWord => exact (hif place).found rest
      | leftBrace => exact (hblock place).found rest
      | identifier x =>
          cases rest with
          | nil => cases cut <;> rfl
          | cons l rest =>
              obtain ⟨t, place'⟩ := l
              cases t with
              | assign =>
                  exact (closed_moves he (.assign x)).found rest
              | _ => rfl
      | _ => rfl

private theorem statement_moves :
    ∀ room, MovesStmt f (statement cut room) (statement (cut.map (LexError.moved f)) room)
  | 0 => statementOver_moves (sum_moves 0) (noRoom_moves f) (noRoom_moves f)
  | room + 1 =>
      statementOver_moves (sum_moves (room + 1))
        (ifThen_moves (condition_moves room) (statement_moves room))
        (block_moves (statement_moves room))

end Statements

/-- **What a program is does not depend on where its tokens stand**, and where an error stands
moves with the tokens. -/
theorem program_moves (ls : List Lexeme) :
    program (cut.map (LexError.moved f)) (ls.map (Lexeme.moved f))
      = movedAnswer f id (program cut ls) := by
  refine movedAnswer_bind f (statements_moves (statement_moves maxNesting) ls)
    fun (body, rest) => ?_
  cases rest with
  | nil => cases cut <;> rfl
  | cons l rest => rfl

end Parser

end LoopFree
