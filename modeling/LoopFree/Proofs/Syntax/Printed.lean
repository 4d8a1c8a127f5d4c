/-
What the tokens of a printed tree derive.

The tokens of a well-formed tree derive it again, nested as deep as `Program.nesting` says:
where the printer sets parentheses the grammar has a group, and it sets them around every
operand that is not a literal or a name.  A well-formed tree has names, digits and no
signs, so its text is cut into these tokens, and its integers are in range.
-/
import LoopFree.Proofs.Syntax.Signs

namespace LoopFree

open Grammar

/-! ### Well-formed trees have names, numbers and no signs -/

namespace Expr

private theorem IsArithmetic.spelled {e : Expr} (h : e.IsArithmetic) : e.Spelled := by
  induction e with
  | arith op l r ihl ihr => exact ⟨ihl h.1, ihr h.2⟩
  | float x => exact Or.inr h
  | var x => exact h
  | int | bool => exact trivial
  | logic | compare => cases h

private theorem IsArithmetic.signs {e : Expr} (h : e.IsArithmetic) : e.signs = 0 := by
  induction e with
  | arith op l r ihl ihr => rw [Expr.signs, ihl h.1, ihr h.2]
  | int n => exact if_neg (Int.not_lt.mpr h)
  | float x => exact if_neg (by simp [h.1])
  | var | bool => rfl
  | logic | compare => cases h

private theorem IsCondition.spelled {e : Expr} (h : e.IsCondition) : e.Spelled := by
  induction e with
  | logic op l r ihl ihr | compare op l r ihl ihr => exact ⟨ihl h.1, ihr h.2⟩
  | bool b => exact trivial
  | _ => cases h

private theorem IsCondition.signs {e : Expr} (h : e.IsCondition) : e.signs = 0 := by
  induction e with
  | logic op l r ihl ihr | compare op l r ihl ihr => rw [Expr.signs, ihl h.1, ihr h.2]
  | bool b => rfl
  | _ => cases h

private theorem IsShown.spelled {e : Expr} (h : e.IsShown) : e.Spelled := by
  cases e with
  | compare op l r => exact ⟨h.1.spelled, h.2.spelled⟩
  | _ => exact IsArithmetic.spelled h

private theorem IsShown.signs {e : Expr} (h : e.IsShown) : e.signs = 0 := by
  cases e with
  | compare op l r => rw [Expr.signs, h.1.signs, h.2.signs]
  | _ => exact IsArithmetic.signs h

end Expr

mutual

theorem Stmt.WellFormed.spelled : ∀ {s : Stmt}, s.WellFormed → s.Spelled
  | .block _, h => Stmt.AllWellFormed.spelled h
  | .empty, _ => trivial
  | .assign _ _, h => ⟨h.1, h.2.spelled⟩
  | .print _, h => Expr.IsShown.spelled h
  | .ifThen _ _, h => ⟨h.1.spelled, Stmt.WellFormed.spelled h.2⟩

theorem Stmt.AllWellFormed.spelled : ∀ {ss : List Stmt}, Stmt.AllWellFormed ss →
    Stmt.AllSpelled ss
  | [], _ => trivial
  | _ :: _, h => ⟨Stmt.WellFormed.spelled h.1, Stmt.AllWellFormed.spelled h.2⟩

end

mutual

theorem Stmt.WellFormed.signs : ∀ {s : Stmt}, s.WellFormed → s.signs = 0
  | .block _, h => Stmt.AllWellFormed.signs h
  | .empty, _ => rfl
  | .assign _ _, h => h.2.signs
  | .print _, h => Expr.IsShown.signs h
  | .ifThen _ _, h => by rw [Stmt.signs, h.1.signs, Stmt.WellFormed.signs h.2]

theorem Stmt.AllWellFormed.signs : ∀ {ss : List Stmt}, Stmt.AllWellFormed ss →
    Stmt.allSigns ss = 0
  | [], _ => rfl
  | _ :: _, h => by rw [Stmt.allSigns, Stmt.WellFormed.signs h.1, Stmt.AllWellFormed.signs h.2]

end

/-! ### A tree equals itself -/

private theorem Expr.Spelled.alike_self {e : Expr} (h : e.Spelled) : e.alike e = true := by
  induction e with
  | arith op l r ihl ihr | logic op l r ihl ihr | compare op l r ihl ihr =>
      simp [Expr.alike, ihl h.1, ihr h.2]
  | float x =>
      refine (Binary64.beq_iff x x).mpr ?_
      have hle : Binary64.index x ≤ Binary64.infinityIndex := by
        rcases h with hlt | hx
        · exact Nat.le_of_lt hlt
        · exact hx.2
      exact ⟨hle, hle, Or.inl rfl⟩
  | int | bool | var => exact beq_iff_eq.mpr rfl

mutual

theorem Stmt.Spelled.alike_self : ∀ {s : Stmt}, s.Spelled → s.alike s = true
  | .block _, h => Stmt.AllSpelled.alike_self h
  | .empty, _ => rfl
  | .assign _ _, h => by simp [Stmt.alike, h.2.alike_self]
  | .print _, h => Expr.Spelled.alike_self h
  | .ifThen _ _, h => by simp [Stmt.alike, h.1.alike_self, Stmt.Spelled.alike_self h.2]

theorem Stmt.AllSpelled.alike_self : ∀ {ss : List Stmt}, Stmt.AllSpelled ss →
    Stmt.alikeAll ss ss = true
  | [], _ => rfl
  | _ :: _, h => by
      simp [Stmt.alikeAll, Stmt.Spelled.alike_self h.1, Stmt.AllSpelled.alike_self h.2]

end

/-! ### Derivations of printed trees

With parentheses around every operation on numbers, a printed tree leaves no choice to precedence.
The price is that it nests as deep as the tree, where its source may have had no parentheses at
all.
-/

private theorem derives_arith {op : ArithOp} {d d' : Nat} {ts ts' : List Token} {l r : Expr}
    (hl : Derives .operand d ts l) (hr : Derives .operand d' ts' r) :
    Derives .sum (max d d') (ts ++ op.token :: ts') (.arith op l r) := by
  cases op with
  | add | sub => exact .added (by simp) (.term (.factor hl)) (.factor hr)
  | mul | div => exact .term (.scaled (by simp) (.factor hl) hr)

private theorem digitsValue_repr (n : Nat) : digitsValue (Nat.repr n).toList = n := by
  rw [Nat.toList_repr, digitsValue_toDigits]

private theorem int64_ofNat_natAbs {n : Int64} (h : 0 ≤ n.toInt) :
    Int64.ofNat n.toInt.natAbs = n := by
  have hlt := n.toInt_lt
  apply Int64.toInt.inj
  rw [Int64.toInt_ofNat_of_lt (by omega)]
  omega

/-- The digits of an integer derive its literal. -/
theorem derives_int {n : Int64} (h : 0 ≤ n.toInt) :
    Derives .operand 0 [.integer (Nat.repr n.toInt.natAbs)] (.int n) := by
  have hder := Derives.integer (Nat.repr n.toInt.natAbs)
  rw [digitsValue_repr, int64_ofNat_natAbs h] at hder
  exact hder

/-- **The tokens of arithmetic derive it**, nested as deep as it is. -/
theorem Expr.IsArithmetic.derives {e : Expr} (h : e.IsArithmetic) :
    Derives .operand e.nesting e.tokens e := by
  induction e with
  | arith op l r ihl ihr => exact .sumGroup (derives_arith (ihl h.1) (ihr h.2))
  | int n =>
      have htokens : (int n).tokens = [.integer (Nat.repr n.toInt.natAbs)] :=
        if_neg (Int.not_lt.mpr h)
      rw [htokens]
      exact derives_int h
  | float x =>
      have hder := Derives.float (floatLiteralText x)
      rw [(floatLiteralText_reads h).2] at hder
      have htokens : (float x).tokens = [.float (floatLiteralText x)] := if_neg (by simp [h.1])
      rw [htokens]
      exact hder
  | var x =>
      rw [tokens, IsName.ofWord h]
      exact .name x
  | logic | compare | bool => cases h

/-- **The tokens of a condition derive it**, nested as deep as it is. -/
theorem Expr.IsCondition.derives {e : Expr} (h : e.IsCondition) :
    Derives .truth e.nesting e.tokens e := by
  induction e with
  | logic op l r ihl ihr =>
      exact .conditionGroup (.connected op (.tested (.alone (ihl h.1))) (.alone (ihr h.2)))
  | compare op l r ihl ihr =>
      exact .conditionGroup (.tested (.truthsCompared op (ihl h.1) (ihr h.2)))
  | bool b =>
      cases b with
      | true => exact .trueWord
      | false => exact .falseWord
  | arith | int | float | var => cases h

private theorem Expr.IsShown.derives {e : Expr} (h : e.IsShown) :
    Derives .shown e.shownNesting e.shownTokens e := by
  cases e with
  | compare op l r =>
      exact .valuesCompared op (.term (.factor h.1.derives)) (.term (.factor h.2.derives))
  | _ => exact .value (.term (.factor (IsArithmetic.derives h)))

mutual

/-- **The tokens of a well-formed statement derive it.** -/
theorem Stmt.WellFormed.derives : ∀ {s : Stmt}, s.WellFormed → DerivesStmt s.nesting s.tokens s
  | .block _, h => .block (Stmt.AllWellFormed.derives h)
  | .empty, _ => .empty
  | .assign x e, h => by
      rw [Stmt.tokens, h.1.ofWord]
      exact .assign x (.term (.factor h.2.derives))
  | .print _, h => .print (Expr.IsShown.derives h)
  | .ifThen _ _, h => .ifThen (.tested (.alone h.1.derives)) (Stmt.WellFormed.derives h.2)

theorem Stmt.AllWellFormed.derives : ∀ {ss : List Stmt}, Stmt.AllWellFormed ss →
    DerivesStmts (Stmt.allNesting ss) (Stmt.allTokens ss) ss
  | [], _ => .nil
  | _ :: _, h => .cons (Stmt.WellFormed.derives h.1) (Stmt.AllWellFormed.derives h.2)

end

/-! ### Printed integers are in range -/

theorem inRange_between {t : Token} {ts ts' : List Token} (ht : t.InRange)
    (h : ∀ u ∈ ts, u.InRange) (h' : ∀ u ∈ ts', u.InRange) : ∀ u ∈ ts ++ t :: ts', u.InRange := by
  intro u hu
  rcases List.mem_append.mp hu with hu | hu
  · exact h u hu
  · rcases List.mem_cons.mp hu with rfl | hu
    · exact ht
    · exact h' u hu

theorem inRange_enclosed {t t' : Token} {ts : List Token} (ht : t.InRange) (ht' : t'.InRange)
    (h : ∀ u ∈ ts, u.InRange) : ∀ u ∈ t :: (ts ++ [t']), u.InRange := by
  intro u hu
  rcases List.mem_cons.mp hu with rfl | hu
  · exact ht
  · exact inRange_between ht' h (by simp) u hu

private theorem inRange_ofWord (w : String) : (Token.ofWord w).InRange := by
  unfold Token.ofWord
  cases hk : keyword? w with
  | none => exact trivial
  | some t =>
      have hmem := keyword?_eq_some hk
      simp only [keywords, List.mem_cons, Prod.mk.injEq, List.not_mem_nil, or_false] at hmem
      rcases hmem with ⟨-, rfl⟩ | ⟨-, rfl⟩ | ⟨-, rfl⟩ | ⟨-, rfl⟩ <;> exact trivial

private theorem inRange_boolToken (b : Bool) : (boolToken b).InRange := by
  cases b <;> exact trivial

theorem inRange_int {n : Int64} (h : 0 ≤ n.toInt) :
    (Token.integer (Nat.repr n.toInt.natAbs)).InRange := by
  show (digitsValue (Nat.repr n.toInt.natAbs).toList : Int) ≤ Int64.maxValue.toInt
  rw [digitsValue_repr, Int.natAbs_of_nonneg h]
  exact n.toInt_le

private theorem inRange_intTokens {n : Int64} (h : (Expr.int n).signs = 0) :
    ∀ t ∈ intTokens n, t.InRange := by
  have hpos : ¬ n.toInt < 0 := by
    intro hneg
    rw [Expr.signs, if_pos hneg] at h
    simp at h
  have htokens : intTokens n = [.integer (Nat.repr n.toInt.natAbs)] := if_neg hpos
  rw [htokens]
  intro t ht
  rw [List.mem_singleton.mp ht]
  exact inRange_int (Int.not_lt.mp hpos)

private theorem inRange_floatTokens (x : Float) : ∀ t ∈ floatTokens x, t.InRange := by
  intro t ht
  unfold floatTokens at ht
  split at ht
  · simp only [List.mem_cons, List.not_mem_nil, or_false] at ht
    rcases ht with rfl | rfl <;> exact trivial
  · rw [List.mem_singleton.mp ht]
    exact trivial

/-- The integers of a tree without signs are printed in range. -/
theorem Expr.inRange_tokens {e : Expr} (h : e.signs = 0) : ∀ t ∈ e.tokens, t.InRange := by
  induction e with
  | arith op l r ihl ihr | logic op l r ihl ihr | compare op l r ihl ihr =>
      obtain ⟨hl, hr⟩ := Nat.add_eq_zero_iff.mp h
      exact inRange_enclosed trivial trivial (inRange_between op.token_inRange (ihl hl) (ihr hr))
  | int n => exact inRange_intTokens h
  | float x => exact inRange_floatTokens x
  | bool b =>
      intro t ht
      rw [List.mem_singleton.mp ht]
      exact inRange_boolToken b
  | var x =>
      intro t ht
      rw [List.mem_singleton.mp ht]
      exact inRange_ofWord x

private theorem Expr.inRange_shownTokens {e : Expr} (h : e.signs = 0) :
    ∀ t ∈ e.shownTokens, t.InRange := by
  cases e with
  | compare op l r =>
      obtain ⟨hl, hr⟩ := Nat.add_eq_zero_iff.mp h
      exact inRange_between op.token_inRange (inRange_tokens hl) (inRange_tokens hr)
  | _ => exact inRange_tokens h

mutual

theorem Stmt.inRange_tokens : ∀ {s : Stmt}, s.signs = 0 → ∀ t ∈ s.tokens, t.InRange
  | .block _, h => inRange_enclosed trivial trivial (Stmt.inRange_allTokens h)
  | .empty, _ => fun t ht => by
      rw [List.mem_singleton.mp ht]
      exact trivial
  | .assign x _, h => List.forall_mem_cons.mpr
      ⟨inRange_ofWord x, inRange_enclosed trivial trivial (Expr.inRange_tokens h)⟩
  | .print _, h => inRange_enclosed trivial trivial (Expr.inRange_shownTokens h)
  | .ifThen c body, h => by
      obtain ⟨hc, hbody⟩ := Nat.add_eq_zero_iff.mp h
      exact List.forall_mem_cons.mpr ⟨trivial, List.forall_mem_cons.mpr ⟨trivial,
        inRange_between trivial (Expr.inRange_tokens hc) (Stmt.inRange_tokens hbody)⟩⟩

theorem Stmt.inRange_allTokens : ∀ {ss : List Stmt}, Stmt.allSigns ss = 0 →
    ∀ t ∈ Stmt.allTokens ss, t.InRange
  | [], _ => fun _ ht => by cases ht
  | s :: rest, h => by
      obtain ⟨hs, hrest⟩ := Nat.add_eq_zero_iff.mp h
      exact List.forall_mem_append.mpr ⟨Stmt.inRange_tokens hs, Stmt.inRange_allTokens hrest⟩

end

end LoopFree
