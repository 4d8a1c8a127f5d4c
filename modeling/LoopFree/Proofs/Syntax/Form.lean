/-
The trees that programs have.

A tree can be built that no source has: it may compare in the wrong place, hold a
negative literal, or call a variable by a keyword.  `Program.WellFormed` says which trees
the grammar makes, without mention of tokens.  Arithmetic, what a `print` shows and
conditions are three forms of expression, and every derivation of the grammar makes one of
them; so the tree of an accepted source is well formed.

`Program.nesting` is how deep the printed text of a tree nests: every binary expression is
printed in parentheses, but for a comparison at the top of a `print`.
-/
import LoopFree.Proofs.Decimal.RoundTrip
import LoopFree.Proofs.Syntax.Acceptance
import LoopFree.Proofs.Token.WellFormed

namespace LoopFree

open Grammar

/-! ### Forms of expressions

The trees are more than the grammar makes of tokens.  In a tree a comparison may stand below a sum
and a literal may have a sign, and the printer and the evaluator take it.  The forms single out
what can be written.
-/

namespace Expr

/-- Operators on numbers over literals without a sign and names. -/
def IsArithmetic : Expr → Prop
  | arith _ l r => l.IsArithmetic ∧ r.IsArithmetic
  | int n => 0 ≤ n.toInt
  | float x => Binary64.IsUnsigned x
  | var x => IsName x
  | _ => False

/-- Arithmetic, or one comparison of arithmetic. -/
def IsShown : Expr → Prop
  | compare _ l r => l.IsArithmetic ∧ r.IsArithmetic
  | e => e.IsArithmetic

/-- Connectives and comparisons over boolean literals. -/
def IsCondition : Expr → Prop
  | logic _ l r => l.IsCondition ∧ r.IsCondition
  | compare _ l r => l.IsCondition ∧ r.IsCondition
  | bool _ => True
  | _ => False

/-- How many binary expressions lie inside one another. -/
def nesting : Expr → Nat
  | arith _ l r => max l.nesting r.nesting + 1
  | logic _ l r => max l.nesting r.nesting + 1
  | compare _ l r => max l.nesting r.nesting + 1
  | _ => 0

/-- The nesting of what a `print` shows: a comparison at the top does not count. -/
def shownNesting : Expr → Nat
  | compare _ l r => max l.nesting r.nesting
  | e => e.nesting

end Expr

/-! ### Forms of statements -/

mutual

/-- The statement is built as the grammar builds it. -/
def Stmt.WellFormed : Stmt → Prop
  | .block body => Stmt.AllWellFormed body
  | .empty => True
  | .assign x e => IsName x ∧ e.IsArithmetic
  | .print e => e.IsShown
  | .ifThen c body => c.IsCondition ∧ body.WellFormed

/-- The statements are built as the grammar builds them. -/
def Stmt.AllWellFormed : List Stmt → Prop
  | [] => True
  | s :: rest => s.WellFormed ∧ Stmt.AllWellFormed rest

end

mutual

/-- How many blocks, conditionals and binary expressions lie inside one another. -/
def Stmt.nesting : Stmt → Nat
  | .block body => Stmt.allNesting body + 1
  | .empty => 0
  | .assign _ e => e.nesting
  | .print e => e.shownNesting
  | .ifThen c body => max c.nesting body.nesting + 1

/-- The deepest nesting of the statements. -/
def Stmt.allNesting : List Stmt → Nat
  | [] => 0
  | s :: rest => max s.nesting (Stmt.allNesting rest)

end

/-- The program is built as the grammar builds it. -/
def Program.WellFormed (p : Program) : Prop :=
  Stmt.AllWellFormed p

/-- The deepest nesting of the program. -/
def Program.nesting (p : Program) : Nat :=
  Stmt.allNesting p

/-! ### What the grammar makes -/

/-- The form of the trees in a category. -/
def Grammar.Category.Form : Category → Expr → Prop
  | .sum | .product | .operand => Expr.IsArithmetic
  | .shown => Expr.IsShown
  | .condition | .test | .truth => Expr.IsCondition

theorem Expr.IsArithmetic.isShown {e : Expr} (h : e.IsArithmetic) : e.IsShown := by
  cases e with
  | compare => cases h
  | _ => exact h

/-- The token makes a leaf of a well-formed tree, if it makes one. -/
def Token.Valid (t : Token) : Prop :=
  t.Named ∧ t.InRange

/-- What a float literal stands for has no sign. -/
theorem isUnsigned_floatOfLiteral (s : String) : Binary64.IsUnsigned (floatOfLiteral s) :=
  Binary64.isUnsigned_ofIndex (Decimal.nearest_le _)

private theorem isArithmetic_of_inRange {s : String} (h : (Token.integer s).InRange) :
    (Expr.int (Int64.ofNat (digitsValue s.toList))).IsArithmetic := by
  have hmax : Int64.maxValue.toInt = 2 ^ 63 - 1 := rfl
  have hlt : digitsValue s.toList < 2 ^ 63 := by
    have : (digitsValue s.toList : Int) ≤ Int64.maxValue.toInt := h
    omega
  show 0 ≤ (Int64.ofNat (digitsValue s.toList)).toInt
  rw [Int64.toInt_ofNat_of_lt hlt]
  exact Int.natCast_nonneg _

section Tokens

variable {ts ts' : List Token} {t : Token}

private theorem valid_of_append (h : ∀ u ∈ ts ++ t :: ts', u.Valid) :
    (∀ u ∈ ts, u.Valid) ∧ ∀ u ∈ ts', u.Valid :=
  ⟨fun u hu => h u (by simp [hu]), fun u hu => h u (by simp [hu])⟩

private theorem valid_of_group {t' : Token} (h : ∀ u ∈ t :: (ts ++ [t']), u.Valid) :
    ∀ u ∈ ts, u.Valid :=
  fun u hu => h u (by simp [hu])

end Tokens

/-- **Every derivation makes a tree of its category's form.** -/
theorem form_of_derives {c : Category} {d : Nat} {ts : List Token} {e : Expr}
    (h : Derives c d ts e) : (∀ t ∈ ts, t.Valid) → c.Form e := by
  induction h with
  | name x =>
      intro hts
      exact (hts _ (List.mem_singleton_self _)).1 x rfl
  | integer s =>
      intro hts
      exact isArithmetic_of_inRange (hts _ (List.mem_singleton_self _)).2
  | float s =>
      intro _
      exact isUnsigned_floatOfLiteral s
  | sumGroup h ih | conditionGroup h ih =>
      intro hts
      exact ih (valid_of_group hts)
  | factor h ih | term h ih | alone h ih | tested h ih =>
      intro hts
      exact ih hts
  | value h ih =>
      intro hts
      exact Expr.IsArithmetic.isShown (ih hts)
  | scaled _ hl hr ihl ihr | added _ hl hr ihl ihr | valuesCompared _ hl hr ihl ihr
  | truthsCompared _ hl hr ihl ihr | connected _ hl hr ihl ihr =>
      intro hts
      obtain ⟨hleft, hright⟩ := valid_of_append hts
      exact ⟨ihl hleft, ihr hright⟩
  | trueWord | falseWord =>
      intro _
      exact trivial

mutual

theorem wellFormed_of_derivesStmt {d : Nat} {ts : List Token} {s : Stmt} :
    DerivesStmt d ts s → (∀ t ∈ ts, t.Valid) → s.WellFormed
  | .empty, _ => trivial
  | .assign x h, hts =>
      ⟨(hts (.identifier x) (by simp)).1 x rfl,
        form_of_derives h fun t ht => hts t (by simp [ht])⟩
  | .print h, hts => form_of_derives h (valid_of_group hts)
  | .ifThen hc hbody, hts =>
      ⟨form_of_derives hc fun t ht => hts t (by simp [ht]),
        wellFormed_of_derivesStmt hbody fun t ht => hts t (by simp [ht])⟩
  | .block h, hts => wellFormed_of_derivesStmts h (valid_of_group hts)

theorem wellFormed_of_derivesStmts {d : Nat} {ts : List Token} {ss : List Stmt} :
    DerivesStmts d ts ss → (∀ t ∈ ts, t.Valid) → Stmt.AllWellFormed ss
  | .nil, _ => trivial
  | .cons h hmore, hts =>
      ⟨wellFormed_of_derivesStmt h fun t ht => hts t (by simp [ht]),
        wellFormed_of_derivesStmts hmore fun t ht => hts t (by simp [ht])⟩

end

/-- **The tree of an accepted source is well formed.** -/
theorem Source.wellFormed_of_parse {s : Source} {p : Program} (h : s.parse = .ok p) :
    p.WellFormed := by
  obtain ⟨ls, d, htokens, hder, hrange, -⟩ := Source.denotes_of_parse h
  refine wellFormed_of_derivesStmts hder ?_
  intro t ht
  obtain ⟨l, hl, rfl⟩ := List.mem_map.mp ht
  exact ⟨(htokens.wellFormed l hl).named, hrange l hl⟩

end LoopFree
