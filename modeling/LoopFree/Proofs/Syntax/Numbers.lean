/-
What becomes of number literals.

An integer literal is the integer that its digits spell, if that is in range, and is refused where
the parser reads it if it is not.  A float literal is always a number without a sign.  So in the
tree of a program the literals are those of its tokens, in order; and a literal is refused for its
range exactly if nothing is wrong in front of it and a number may stand where it does, which the
parser finds out in the same way with the literal `0` in its place.
-/
import LoopFree.Proofs.Syntax.FirstError
import LoopFree.Proofs.Syntax.Form
import LoopFree.Proofs.Syntax.Probe

namespace LoopFree

open Grammar

/-! ### Literals -/

private theorem Token.inRange_iff {digits : String} :
    (Token.integer digits).InRange ↔ digitsValue digits.toList ≤ 2 ^ 63 - 1 := by
  have hmax : Int64.maxValue.toInt = 2 ^ 63 - 1 := rfl
  show (digitsValue digits.toList : Int) ≤ Int64.maxValue.toInt ↔ _
  omega

/-- In range, the integer is the one that the digits spell. -/
theorem toInt_of_inRange {digits : String} (h : (Token.integer digits).InRange) :
    (Int64.ofNat (digitsValue digits.toList)).toInt = digitsValue digits.toList := by
  rw [Token.inRange_iff] at h
  exact Int64.toInt_ofNat_of_lt (by omega)

/-- A float literal is a number, and its sign bit is clear. -/
theorem floatOfLiteral_unsigned (literal : String) :
    floatOfLiteral literal ≠ Float.nan ∧ Binary64.isNegative (floatOfLiteral literal) = false := by
  obtain ⟨hsign, hindex⟩ := isUnsigned_floatOfLiteral literal
  exact ⟨Binary64.ne_nan_iff.mpr hindex, hsign⟩

/-- What is scanned on the way is well-formed, also in front of a failure. -/
theorem Cursor.wellFormed_of_mem_feed (c : Cursor) :
    ∀ l ∈ c.feed.lexemes, l.token.WellFormed := by
  induction c using Cursor.next_induction with
  | done c after h =>
      rw [feed_of_done h]
      intro l hl
      cases hl
  | failed c why after h =>
      rw [feed_of_failed h]
      intro l hl
      cases hl
  | lexeme c l after h ih =>
      rw [feed_of_lexeme h]
      intro m hm
      rcases List.mem_cons.mp hm with rfl | hm
      · obtain ⟨cs, rest, hscan⟩ := scan_of_next h
        exact wellFormed_of_scan hscan
      · exact ih m hm

/-! ### The literals of a tree

Every number literal among the tokens should be found in the tree, as the number it spells.  They
are matched by their order, which is the same in both.
-/

/-- The number literals of an expression, in order. -/
def Expr.numbers : Expr → List Expr
  | arith _ l r | logic _ l r | compare _ l r => l.numbers ++ r.numbers
  | int n => [int n]
  | float x => [float x]
  | bool _ | var _ => []

mutual

/-- The number literals of a statement, in order. -/
def Stmt.numbers : Stmt → List Expr
  | .block body => Stmt.allNumbers body
  | .empty => []
  | .assign _ e | .print e => e.numbers
  | .ifThen c body => c.numbers ++ body.numbers

/-- The number literals of statements, in order. -/
def Stmt.allNumbers : List Stmt → List Expr
  | [] => []
  | s :: rest => s.numbers ++ Stmt.allNumbers rest

end

/-- The token is a number literal. -/
def Token.isNumber : Token → Bool
  | integer _ | float _ => true
  | _ => false

/-- What a number literal becomes: the very integer, or a float that is a number without a sign. -/
inductive Token.Becomes : Token → Expr → Prop
  | integer {digits : String} {n : Int64} (h : n.toInt = digitsValue digits.toList) :
      Becomes (.integer digits) (.int n)
  | float {literal : String} {x : Float} (h : x = floatOfLiteral literal) (hnumber : x ≠ Float.nan)
      (hsign : Binary64.isNegative x = false) : Becomes (.float literal) (.float x)

/-- The literals have become these, one by one. -/
def Converts (ts : List Token) (es : List Expr) : Prop :=
  List.Forall₂ Token.Becomes (ts.filter Token.isNumber) es

section Converts

variable {ts ts' : List Token} {es es' : List Expr} {t : Token}

private theorem Converts.append (h : Converts ts es) (h' : Converts ts' es') :
    Converts (ts ++ ts') (es ++ es') := by
  unfold Converts
  rw [List.filter_append]
  exact List.rel_append h h'

private theorem Converts.behind (h : Converts ts es) (ht : t.isNumber = false) :
    Converts (t :: ts) es := by
  unfold Converts
  rw [List.filter_cons_of_neg (by simp [ht])]
  exact h

private theorem converts_nil : Converts [] [] := .nil

private theorem Converts.between (h : Converts ts es) {t' : Token} (ht : t.isNumber = false)
    (ht' : t'.isNumber = false) : Converts (t :: (ts ++ [t'])) es := by
  have hboth := (h.append (converts_nil.behind ht')).behind ht
  rwa [List.append_nil] at hboth

end Converts

private theorem converts_of_derives {c : Category} {d : Nat} {ts : List Token} {e : Expr}
    (h : Derives c d ts e) : (∀ t ∈ ts, t.InRange) → Converts ts e.numbers := by
  induction h with
  | name x | trueWord | falseWord =>
      intro _
      exact .nil
  | integer digits =>
      intro hts
      exact List.Forall₂.cons (.integer (toInt_of_inRange (hts _ (List.mem_singleton_self _)))) .nil
  | float literal =>
      intro _
      obtain ⟨hnumber, hsign⟩ := floatOfLiteral_unsigned literal
      exact List.Forall₂.cons (.float rfl hnumber hsign) .nil
  | sumGroup h ih | conditionGroup h ih =>
      intro hts
      exact (ih fun t ht => hts t (by simp [ht])).between rfl rfl
  | factor h ih | term h ih | alone h ih | tested h ih | value h ih =>
      intro hts
      exact ih hts
  | @scaled op _ _ _ _ _ _ _ hl hr ihl ihr | @added op _ _ _ _ _ _ _ hl hr ihl ihr
  | valuesCompared op hl hr ihl ihr | truthsCompared op hl hr ihl ihr
  | connected op hl hr ihl ihr =>
      intro hts
      have hop : op.token.isNumber = false := by cases op <;> rfl
      exact (ihl fun t ht => hts t (by simp [ht])).append
        ((ihr fun t ht => hts t (by simp [ht])).behind hop)

mutual

theorem converts_of_derivesStmt {d : Nat} {ts : List Token} {s : Stmt} :
    DerivesStmt d ts s → (∀ t ∈ ts, t.InRange) → Converts ts s.numbers
  | .empty, _ => .nil
  | .assign x h, hts =>
      ((converts_of_derives h fun t ht => hts t (by simp [ht])).between rfl rfl).behind rfl
  | .print h, hts => (converts_of_derives h fun t ht => hts t (by simp [ht])).between rfl rfl
  | .ifThen hc hbody, hts =>
      have hcondition := converts_of_derives hc fun t ht => hts t (by simp [ht])
      have hguarded := converts_of_derivesStmt hbody fun t ht => hts t (by simp [ht])
      ((hcondition.append (hguarded.behind rfl)).behind rfl).behind rfl
  | .block h, hts => (converts_of_derivesStmts h fun t ht => hts t (by simp [ht])).between rfl rfl

theorem converts_of_derivesStmts {d : Nat} {ts : List Token} {ss : List Stmt} :
    DerivesStmts d ts ss → (∀ t ∈ ts, t.InRange) → Converts ts (Stmt.allNumbers ss)
  | .nil, _ => .nil
  | .cons h hmore, hts =>
      (converts_of_derivesStmt h fun t ht => hts t (by simp [ht])).append
        (converts_of_derivesStmts hmore fun t ht => hts t (by simp [ht]))

end

/-! ### A literal that is refused

There may be more than one thing wrong with a source, and the literal is reported only if nothing
in front of it is.  Whether the parser gets as far as the literal is found out with a `0` in its
place.
-/

namespace Parser

/-- Errors of other kinds are about a token. -/
theorem Blames.eq_nil {cut : Option LexError} {cause : LexError} {post : List Lexeme}
    {why : ParseError} (h : Blames cut why post) (hwhy : why = .lexical cause) : post = [] := by
  cases h with
  | ended what => rfl
  | _ => cases hwhy

private theorem Blames.literal {cut : Option LexError} {digits : String} {place : Position}
    {post : List Lexeme} {why : ParseError} (h : Blames cut why post)
    (hwhy : why = .numberOutOfRange digits place) :
    ∃ rest, post = ⟨.integer digits, place⟩ :: rest := by
  cases h with
  | ended what => cases cut <;> cases hwhy
  | outOfRange digits' place' rest =>
      cases hwhy
      exact ⟨rest, rfl⟩
  | _ => cases hwhy

private theorem Blames.ne_nil {why : ParseError} {post : List Lexeme}
    (h : Blames (some barrier) why post) (hwhy : why.Misplaced) : post ≠ [] := by
  cases h with
  | ended what => exact hwhy.elim
  | _ => exact List.cons_ne_nil _ _

private theorem program_of_toEnd {cut : Option LexError} {ls : List Lexeme} {why : ParseError}
    (h : toEnd cut (statement cut maxNesting) ls = .error why) : program cut ls = .error why := by
  rw [program_eq, h]
  rfl

private theorem toEnd_of_program {cut : Option LexError} {ls : List Lexeme} {why : ParseError}
    (h : program cut ls = .error why) :
    toEnd cut (statement cut maxNesting) ls = .error why := by
  rw [program_eq] at h
  cases hend : toEnd cut (statement cut maxNesting) ls with
  | ok r =>
      rw [hend] at h
      cases h
  | error why' =>
      rw [hend] at h
      cases h
      rfl

/-- Tokens behind which the parser comes upon the failure begin a program. -/
theorem begins_of_quiet {ls : List Lexeme}
    (h : Quiet barrier (toEnd (some barrier) (statement (some barrier) maxNesting) ls)) :
    Begins (StmtsWithin maxNesting) ls := by
  rcases h with h | ⟨ss, h⟩
  · obtain ⟨pre, post, rfl, hbegins, hblames, -⟩ := program_stops (program_of_toEnd h)
    rw [hblames.eq_nil rfl, List.append_nil]
    exact hbegins
  · cases cut_of_toEnd h

/-- In tokens that begin a program no token is misplaced. -/
theorem not_misplaced {ls : List Lexeme} (hbegins : Begins (StmtsWithin maxNesting) ls)
    {why : ParseError} (hwhy : why.Misplaced) :
    toEnd (some barrier) (statement (some barrier) maxNesting) ls ≠ .error why := by
  intro h
  obtain ⟨pre, post, rfl, -, hblames, hsteady⟩ := program_stops (program_of_toEnd h)
  obtain ⟨more, p, d, hd, hder, hrange⟩ := hbegins
  have hne := hblames.ne_nil hwhy
  have hok := program_of_derives hder ⟨hd, rfl, hrange⟩
  rw [List.append_assoc, hsteady hne (post ++ more)] at hok
  · cases hok
  · refine ⟨?_, ?_⟩
    · obtain ⟨l, rest, rfl⟩ := List.exists_cons_of_ne_nil hne
      rfl
    · rintro l rest x rfl -
      cases rest with
      | nil => exact Or.inl ⟨rfl, Option.some_ne_none _⟩
      | cons m rest => exact Or.inr rfl

private theorem Begins.inRange {ls : List Lexeme} (h : Begins (StmtsWithin maxNesting) ls) :
    ∀ l ∈ ls, l.token.InRange := by
  obtain ⟨more, p, d, hd, hder, hrange⟩ := h
  exact fun l hl => hrange l (List.mem_append_left more hl)

/-- **A literal is refused exactly if it is out of range and stands where the tokens in front of it
can go on with a number.** -/
theorem program_outOfRange_iff (cut : Option LexError) (ls : List Lexeme) (digits : String)
    (place : Position) :
    program cut ls = .error (.numberOutOfRange digits place) ↔
      ∃ before after : List Lexeme, ls = before ++ ⟨.integer digits, place⟩ :: after ∧
        ¬ (Token.integer digits).InRange ∧
        Viable (before.map Lexeme.token ++ [.integer "0"]) := by
  have hviable : ∀ (k : Spot) (before : List Lexeme),
      Viable (before.map Lexeme.token ++ [.integer "0"]) ↔
        Begins (StmtsWithin maxNesting) (before ++ k.probe) := by
    intro k before
    rw [← viable_iff, List.map_append]
    rfl
  constructor
  · intro h
    obtain ⟨before, post, rfl, hbegins, hblames, -⟩ := program_stops h
    obtain ⟨after, rfl⟩ := hblames.literal rfl
    let k : Spot := ⟨digits, place, after⟩
    have hprobes := (program_meets k cut).probes hbegins.inRange
    rw [show before ++ k.rest = before ++ ⟨.integer digits, place⟩ :: after from rfl,
      toEnd_of_program h] at hprobes
    generalize hprobed : toEnd (some barrier) _ (before ++ k.probe) = probed at hprobes
    cases hprobes with
    | taken hhonest hrefused hquiet =>
        rw [← hprobed] at hquiet
        exact ⟨before, after, rfl, hhonest digits place rfl,
          (hviable k before).mpr (begins_of_quiet hquiet)⟩
    | failed hwhy hwhy' => exact hwhy.elim
  · rintro ⟨before, after, rfl, hout, hgoes⟩
    let k : Spot := ⟨digits, place, after⟩
    have hbegins := (hviable k before).mp hgoes
    have hbefore : ∀ l ∈ before, l.token.InRange :=
      fun l hl => hbegins.inRange l (List.mem_append_left _ hl)
    have hprobes := (program_meets k cut).probes hbefore
    generalize hrun : toEnd cut _ (before ++ k.rest) = run at hprobes
    generalize hprobed : toEnd (some barrier) _ (before ++ k.probe) = probed at hprobes
    cases hprobes with
    | before hv => cases cut_of_toEnd hprobed
    | taken hhonest hrefused hquiet =>
        rw [hrefused hout] at hrun
        exact program_of_toEnd hrun
    | failed hwhy hwhy' => exact absurd hprobed (not_misplaced hbegins hwhy')

end Parser

/-! ### The literals of a source -/

namespace Parser

variable {cut : Option LexError} {group : Opened Expr} {l : Lexeme} {rest : List Lexeme}

private theorem operand_of_inRange {digits : String} (htoken : l.token = .integer digits)
    (hmax : digitsValue digits.toList ≤ 2 ^ 63 - 1) :
    ∃ n : Int64, n.toInt = digitsValue digits.toList ∧
      operand cut group (l :: rest) = .ok (.int n, rest) := by
  obtain ⟨_, place⟩ := l
  cases htoken
  have hin := Token.inRange_iff.mpr hmax
  refine ⟨_, toInt_of_inRange hin, ?_⟩
  rw [operand, intOfLiteral?_of_inRange hin]

/-- However many zeros are in front. -/
example : operand none noRoom [⟨.integer "0009223372036854775807", ⟨1, 1⟩⟩]
    = .ok (.int Int64.maxValue, []) := by
  rfl

private theorem operand_of_outOfRange {digits : String} (htoken : l.token = .integer digits)
    (hmax : 2 ^ 63 - 1 < digitsValue digits.toList) :
    operand cut group (l :: rest) = .error (.numberOutOfRange digits l.position) := by
  obtain ⟨_, place⟩ := l
  cases htoken
  have hout : ¬ (Token.integer digits).InRange :=
    fun hin => Nat.not_lt.mpr (Token.inRange_iff.mp hin) hmax
  rw [operand, intOfLiteral?_eq_none_iff.mpr hout]

private theorem operand_of_float {literal : String} (htoken : l.token = .float literal) :
    operand cut group (l :: rest) = .ok (.float (floatOfLiteral literal), rest) := by
  obtain ⟨_, place⟩ := l
  cases htoken
  rfl

end Parser

/-- **Number literals are read as they are, or refused for their range only.**  Where an operand may
stand, digits become their very value if it is in range and an error at them if it is not, and a
float literal becomes a number without a sign.  So the literals of a tree are those of the source;
and the error is about a literal exactly if the first thing wrong is that it is too large. -/
theorem Source.numbers_convert (s : Source) :
    (∀ l ∈ s.feed.lexemes, ∀ cut group rest,
      (∀ digits, l.token = .integer digits → IsDigits digits.toList ∧
        (digitsValue digits.toList ≤ 2 ^ 63 - 1 →
          ∃ n : Int64, n.toInt = digitsValue digits.toList ∧
            Parser.operand cut group (l :: rest) = .ok (.int n, rest)) ∧
        (2 ^ 63 - 1 < digitsValue digits.toList →
          Parser.operand cut group (l :: rest) = .error (.numberOutOfRange digits l.position))) ∧
      (∀ literal, l.token = .float literal → IsFloatLiteral literal.toList ∧
        floatOfLiteral literal ≠ Float.nan ∧ Binary64.isNegative (floatOfLiteral literal) = false ∧
        Parser.operand cut group (l :: rest) = .ok (.float (floatOfLiteral literal), rest))) ∧
    (∀ p, s.parse = .ok p → Converts (s.feed.lexemes.map Lexeme.token) (Stmt.allNumbers p)) ∧
    ∀ digits place, s.parse = .error (.numberOutOfRange digits place) ↔
      ∃ before after : List Lexeme, s.feed.lexemes = before ++ ⟨.integer digits, place⟩ :: after ∧
        2 ^ 63 - 1 < digitsValue digits.toList ∧
        Viable (before.map Lexeme.token ++ [.integer "0"]) := by
  refine ⟨fun l hl cut group rest => ⟨?_, ?_⟩, ?_, ?_⟩
  · intro digits htoken
    have hdigits := (Cursor.start s).wellFormed_of_mem_feed l hl
    rw [htoken] at hdigits
    exact ⟨hdigits, Parser.operand_of_inRange htoken, Parser.operand_of_outOfRange htoken⟩
  · intro literal htoken
    have hliteral := (Cursor.start s).wellFormed_of_mem_feed l hl
    rw [htoken] at hliteral
    obtain ⟨hnumber, hsign⟩ := floatOfLiteral_unsigned literal
    exact ⟨hliteral, hnumber, hsign, Parser.operand_of_float htoken⟩
  · intro p hp
    obtain ⟨-, d, -, hder, hrange⟩ := Parser.program_reads hp
    refine converts_of_derivesStmts hder ?_
    intro t ht
    obtain ⟨l, hl, rfl⟩ := List.mem_map.mp ht
    exact hrange l hl
  · intro digits place
    have hiff := Parser.program_outOfRange_iff s.feed.cut s.feed.lexemes digits place
    simp only [Token.inRange_iff, Nat.not_le] at hiff
    exact hiff

end LoopFree
