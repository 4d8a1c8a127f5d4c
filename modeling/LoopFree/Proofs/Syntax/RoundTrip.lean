/-
Printed programs read back.

The text of a well-formed tree is the tree's source where there is room for its nesting,
and is refused for its nesting where there is not.

No other tree reads back.  What is read back is well formed, and a tree that equals it can
differ from it in the signs of zeros only; but a sign would be a minus too many.
-/
import LoopFree.Proofs.Syntax.Depth
import LoopFree.Proofs.Syntax.Printed

namespace LoopFree

open Grammar

/-! ### Printed programs

Three steps lead from the text of a tree back to the tree: the text is cut into the tree's tokens,
these derive it, and what is derived is read.  The first two ask nothing of the depth of the tree,
so what becomes of a tree that is too deep can be said as well.
-/

namespace Program

/-- The text of a spelled program is a source of the program's tokens. -/
theorem tokenizes_text {p : Program} (h : Stmt.AllSpelled p) :
    ∃ ls, (Source.ofString p.text).Tokenizes ls ∧ ls.map Lexeme.token = Stmt.allTokens p :=
  (lexes_text h).tokenizes

section Printed

variable {p : Program} (h : p.WellFormed)
include h

/-- The text of a well-formed program is cut into tokens that have room for its nesting. -/
theorem fits_text :
    ∃ ls, (Source.ofString p.text).Tokenizes ls ∧
      Parser.Fits p.nesting p.nesting (Stmt.allTokens p) ls := by
  obtain ⟨ls, hls, htokens⟩ := tokenizes_text (Stmt.AllWellFormed.spelled h)
  have hrange := Stmt.inRange_allTokens (Stmt.AllWellFormed.signs h)
  rw [← htokens] at hrange
  exact ⟨ls, hls, Nat.le_refl _, htokens, fun l hl => hrange _ (List.mem_map_of_mem hl)⟩

/-- **A well-formed program with room for its nesting is printed as its source.** -/
theorem parse_text (hroom : p.nesting ≤ maxNesting) :
    (Source.ofString p.text).parse = .ok p := by
  obtain ⟨ls, hls, hfits⟩ := fits_text h
  rw [Source.parse_of_tokenizes hls]
  exact Parser.program_of_derives (Stmt.AllWellFormed.derives h) (hfits.within hroom)

/-- **A well-formed program that nests too deep is printed as a source that is refused for
that.** -/
theorem parse_text_tooDeep (hdeep : maxNesting < p.nesting) :
    ∃ position, (Source.ofString p.text).parse = .error (.tooDeep position) := by
  obtain ⟨ls, hls, hfits⟩ := fits_text h
  rw [Source.parse_of_tokenizes hls]
  exact Parser.program_of_tooDeep (Stmt.AllWellFormed.derives h) hfits hdeep

private theorem alike_self : p.alike p = true :=
  Stmt.AllSpelled.alike_self (Stmt.AllWellFormed.spelled h)

/-- A well-formed program that is read back has room for its nesting. -/
theorem nesting_le_of_parse_text {q : Program} (hq : (Source.ofString p.text).parse = .ok q) :
    p.nesting ≤ maxNesting := by
  refine Nat.le_of_not_lt fun hdeep => ?_
  obtain ⟨position, herror⟩ := parse_text_tooDeep h hdeep
  rw [herror] at hq
  simp at hq

end Printed

/-- **What is read back as a tree that equals the printed one is the printed one.** -/
theorem eq_of_parse_text {p q : Program} (hq : (Source.ofString p.text).parse = .ok q)
    (halike : q.alike p = true) : p = q := by
  have hform := Source.wellFormed_of_parse hq
  have hecho := Stmt.allEcho_of_alike (Stmt.AllWellFormed.spelled hform)
    (Stmt.AllWellFormed.signs hform) halike
  obtain ⟨ls, hls, htokens⟩ := tokenizes_text hecho.spelled
  obtain ⟨ls', d, hls', hder, -, -⟩ := Source.denotes_of_parse hq
  have hsame : ls' = ls := hls'.unique hls
  -- The minuses of the text are the subtractions of what is read, and of what is printed.
  have hread : (Stmt.allTokens p).count .minus = Stmt.allMinuses q := by
    rw [← htokens, ← hsame]
    exact count_minus_of_derivesStmts hder
  have hprinted := Stmt.count_minus_allTokens p
  have hminuses := hecho.minuses
  exact hecho.eq_of_unsigned (by omega)

end Program

/-- What is written in the place of an expression behind `print` is what is printed. -/
theorem Source.parse_print {text : String} {ts : List Token} {d : Nat} {e : Expr}
    (htext : Spells text ts) (he : Derives .shown d ts e) (hrange : ∀ t ∈ ts, t.InRange)
    (hroom : d ≤ maxNesting) :
    (Source.ofString ("print " ++ (text ++ ";"))).parse = .ok [.print e] := by
  have hlexes : Lexes ("print " ++ (text ++ ";")).toList (.printWord :: (ts ++ [.semicolon])) := by
    have hclosed := htext.closed (e := (";", .semicolon)) (by decide) Lexes.nil
    have hall := Lexes.keywordBlank (e := ("print", .printWord)) (by decide) hclosed
    simpa [String.toList_append] using hall
  obtain ⟨ls, hls, htokens⟩ := hlexes.tokenizes
  have hder : DerivesStmts (max d 0) _ [.print e] := .cons (.print he) .nil
  rw [List.append_nil, ← htokens] at hder
  have hall : ∀ t ∈ Token.printWord :: (ts ++ [.semicolon]), t.InRange :=
    inRange_enclosed trivial trivial hrange
  rw [← htokens] at hall
  exact Source.parse_of_denotes ⟨ls, _, hls, hder, fun l hl => hall _ (List.mem_map_of_mem hl),
    Nat.max_le.mpr ⟨hroom, Nat.zero_le _⟩⟩

/-! ### Chains

A chain of sums is read in a loop and nests nothing, however long it is.  Its tree leans to
the left, and is printed with a pair of parentheses around every sum.
-/

/-- The text of a sum of ones. -/
def sumText : Nat → String
  | 0 => "1"
  | n + 1 => infixText (sumText n) "+" "1"

/-- The tokens of a sum of ones. -/
def sumTokens : Nat → List Token
  | 0 => [.integer "1"]
  | n + 1 => sumTokens n ++ .plus :: [.integer "1"]

/-- The tree of a sum of ones. -/
def sumTree : Nat → Expr
  | 0 => .int 1
  | n + 1 => .arith .add (sumTree n) (.int 1)

/-- A `print` of a sum of ones. -/
def sumProgram (n : Nat) : Program :=
  [.print (sumTree n)]

private theorem isArithmetic_one : (Expr.int 1).IsArithmetic := by
  show 0 ≤ (1 : Int64).toInt
  decide

private theorem isArithmetic_sumTree (n : Nat) : (sumTree n).IsArithmetic := by
  induction n with
  | zero => exact isArithmetic_one
  | succ n ih => exact ⟨ih, isArithmetic_one⟩

private theorem wellFormed_sumProgram (n : Nat) : (sumProgram n).WellFormed :=
  ⟨(isArithmetic_sumTree n).isShown, trivial⟩

private theorem nesting_sumTree (n : Nat) : (sumTree n).nesting = n := by
  induction n with
  | zero => rfl
  | succ n ih =>
      show max (sumTree n).nesting 0 + 1 = n + 1
      rw [ih, Nat.max_zero]

private theorem nesting_sumProgram (n : Nat) : (sumProgram n).nesting = n := by
  have hshown : (sumTree n).shownNesting = n := by
    cases n with
    | zero => rfl
    | succ n => exact nesting_sumTree (n + 1)
  show max (sumTree n).shownNesting 0 = n
  rw [hshown, Nat.max_zero]

private theorem spells_sumText (n : Nat) : Spells (sumText n) (sumTokens n) := by
  induction n with
  | zero => exact spells_repr 1
  | succ n ih => exact ih.between (t := .plus) (by decide) (spells_repr 1)

private theorem derives_one : Derives .operand 0 [.integer "1"] (.int 1) :=
  .integer "1"

/-- No sum of the chain lies in another one's parentheses. -/
theorem derives_sumTokens (n : Nat) : Derives .sum 0 (sumTokens n) (sumTree n) := by
  induction n with
  | zero => exact .term (.factor derives_one)
  | succ n ih =>
      have hop : ArithOp.add = .add ∨ ArithOp.add = .sub := Or.inl rfl
      exact .added hop ih (.factor derives_one)

private theorem inRange_sumTokens (n : Nat) : ∀ t ∈ sumTokens n, t.InRange := by
  have hone : (Token.integer "1").InRange := by
    show (digitsValue "1".toList : Int) ≤ Int64.maxValue.toInt
    decide
  induction n with
  | zero =>
      intro t ht
      rw [List.mem_singleton.mp ht]
      exact hone
  | succ n ih => exact inRange_between trivial ih (by simpa [sumTokens] using hone)

/-- The source of a `print` of a sum of ones, without parentheses. -/
def sumSource (n : Nat) : Source :=
  .ofString ("print " ++ (sumText n ++ ";"))

/-- **A chain is accepted at any length.** -/
theorem parse_sumSource (n : Nat) : (sumSource n).parse = .ok (sumProgram n) :=
  Source.parse_print (spells_sumText n) (.value (derives_sumTokens n)) (inRange_sumTokens n)
    (Nat.zero_le _)

/-! ### What reads back -/

/-- **A tree reads back from its text as a tree that equals it exactly when it is well formed
and nests within the limit.**  A well-formed tree beyond the limit is refused for that. -/
theorem Program.reparses_iff (p : Program) :
    ((∃ q, (Source.ofString p.text).parse = .ok q ∧ q.alike p = true) ↔
      p.WellFormed ∧ p.nesting ≤ maxNesting) ∧
    (p.WellFormed → maxNesting < p.nesting →
      ∃ position, (Source.ofString p.text).parse = .error (.tooDeep position)) := by
  refine ⟨⟨?_, ?_⟩, parse_text_tooDeep⟩
  · rintro ⟨q, hq, halike⟩
    obtain rfl := eq_of_parse_text hq halike
    have hform := Source.wellFormed_of_parse hq
    exact ⟨hform, nesting_le_of_parse_text hform hq⟩
  · rintro ⟨hform, hroom⟩
    exact ⟨p, parse_text hform hroom, alike_self hform⟩

theorem Program.not_reparses_sumProgram :
    (sumProgram 257).WellFormed ∧ maxNesting < (sumProgram 257).nesting ∧
      ∃ position, (Source.ofString (sumProgram 257).text).parse = .error (.tooDeep position) := by
  have hdeep : maxNesting < (sumProgram 257).nesting := by
    rw [nesting_sumProgram]
    decide
  have hform := wellFormed_sumProgram 257
  exact ⟨hform, hdeep, (Program.reparses_iff (sumProgram 257)).2 hform hdeep⟩

/-- **An accepted source is printed as its tree's source exactly when the tree nests within
the limit**, which the chains of the source do not tell. -/
theorem Source.printed_reparses_iff {s : Source} {p : Program} (h : s.parse = .ok p) :
    ((∃ q, (Source.ofString p.text).parse = .ok q ∧ q.alike p = true) ↔
      p.nesting ≤ maxNesting) ∧
    (p.nesting ≤ maxNesting → (Source.ofString p.text).parse = .ok p) ∧
    (maxNesting < p.nesting →
      ∃ position, (Source.ofString p.text).parse = .error (.tooDeep position)) := by
  have hform := Source.wellFormed_of_parse h
  refine ⟨⟨?_, ?_⟩, Program.parse_text hform, Program.parse_text_tooDeep hform⟩
  · rintro ⟨q, hq, -⟩
    exact Program.nesting_le_of_parse_text hform hq
  · intro hroom
    exact ⟨p, Program.parse_text hform hroom, Program.alike_self hform⟩

theorem Source.printed_reparses_sumSource :
    (sumSource 256).parse = .ok (sumProgram 256) ∧
      (Source.ofString (sumProgram 256).text).parse = .ok (sumProgram 256) := by
  have hparse := parse_sumSource 256
  refine ⟨hparse, (Source.printed_reparses_iff hparse).2.1 ?_⟩
  rw [nesting_sumProgram]
  decide

/-- A chain of 257 sums is accepted, and its text is not. -/
theorem Source.printed_not_reparses_sumSource :
    (sumSource 257).parse = .ok (sumProgram 257) ∧
      ∃ position, (Source.ofString (sumProgram 257).text).parse = .error (.tooDeep position) := by
  refine ⟨parse_sumSource 257, Program.parse_text_tooDeep (wellFormed_sumProgram 257) ?_⟩
  rw [nesting_sumProgram]
  decide

end LoopFree
