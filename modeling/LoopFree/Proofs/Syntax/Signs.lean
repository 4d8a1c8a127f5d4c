/-
The minus signs of a printed tree.

Trees are compared with floats as numbers, so a tree with a negative zero equals one
without.  Its text does not: a literal with a sign is printed with a minus, and a minus in
a derivation is always a subtraction.  Counting them tells the two apart: the tokens of a
tree have a minus for every subtraction and one for every sign, and the tree that a
derivation makes has as many subtractions as there are minuses.

So a tree that equals a well-formed one, and whose text reads back as that one, has no
signs; and a tree without signs that equals a well-formed one is that one.
-/
import LoopFree.Proofs.Syntax.Tokens

namespace LoopFree

open Grammar

/-! ### Subtractions and signs

In a text a minus is a minus.  A tree that was built by hand may have signs, and what is read back
from its text has subtractions only: as many as the tree has of both.
-/

namespace Expr

/-- The subtractions of an expression. -/
def minuses : Expr → Nat
  | arith op l r => l.minuses + r.minuses + if op = .sub then 1 else 0
  | logic _ l r => l.minuses + r.minuses
  | compare _ l r => l.minuses + r.minuses
  | _ => 0

/-- The literals of an expression that have a sign. -/
def signs : Expr → Nat
  | arith _ l r => l.signs + r.signs
  | logic _ l r => l.signs + r.signs
  | compare _ l r => l.signs + r.signs
  | int n => if n.toInt < 0 then 1 else 0
  | float x => if Binary64.isNegative x then 1 else 0
  | _ => 0

end Expr

mutual

/-- The subtractions of a statement. -/
def Stmt.minuses : Stmt → Nat
  | .block body => Stmt.allMinuses body
  | .empty => 0
  | .assign _ e => e.minuses
  | .print e => e.minuses
  | .ifThen c body => c.minuses + body.minuses

/-- The subtractions of statements. -/
def Stmt.allMinuses : List Stmt → Nat
  | [] => 0
  | s :: rest => s.minuses + Stmt.allMinuses rest

end

mutual

/-- The literals of a statement that have a sign. -/
def Stmt.signs : Stmt → Nat
  | .block body => Stmt.allSigns body
  | .empty => 0
  | .assign _ e => e.signs
  | .print e => e.signs
  | .ifThen c body => c.signs + body.signs

/-- The literals of statements that have a sign. -/
def Stmt.allSigns : List Stmt → Nat
  | [] => 0
  | s :: rest => s.signs + Stmt.allSigns rest

end

/-! ### Minuses among the tokens -/

private theorem ArithOp.token_eq_minus (op : ArithOp) : op.token = .minus ↔ op = .sub := by
  cases op <;> simp [ArithOp.token]

private theorem LogicOp.token_ne_minus (op : LogicOp) : op.token ≠ .minus := by
  cases op <;> simp [LogicOp.token]

private theorem CompareOp.token_ne_minus (op : CompareOp) : op.token ≠ .minus := by
  cases op <;> simp [CompareOp.token]

private theorem keyword_ne_minus : ∀ e ∈ keywords, e.2 ≠ .minus := by
  decide

private theorem ofWord_ne_minus (w : String) : Token.ofWord w ≠ .minus := by
  unfold Token.ofWord
  cases hk : keyword? w with
  | none => exact Token.noConfusion
  | some t => exact keyword_ne_minus _ (keyword?_eq_some hk)

private theorem boolToken_ne_minus (b : Bool) : boolToken b ≠ .minus := by
  cases b <;> exact Token.noConfusion

private theorem count_minus_intTokens (n : Int64) :
    (intTokens n).count .minus = (Expr.int n).signs := by
  unfold intTokens Expr.signs
  simp only
  split <;> simp

private theorem count_minus_floatTokens (x : Float) :
    (floatTokens x).count .minus = (Expr.float x).signs := by
  unfold floatTokens Expr.signs
  split <;> simp

private theorem count_minus_arith (op : ArithOp) (ts ts' : List Token) :
    (ts ++ op.token :: ts').count .minus
      = ts.count .minus + ts'.count .minus + if op = .sub then 1 else 0 := by
  by_cases h : op = .sub
  · rw [if_pos h, List.count_append, h]
    show ts.count .minus + (Token.minus :: ts').count .minus = _
    rw [List.count_cons_self]
    omega
  · have hne : op.token ≠ .minus := fun ht => h (op.token_eq_minus.mp ht)
    rw [if_neg h, List.count_append, List.count_cons_of_ne hne]
    omega

private theorem count_minus_between {t : Token} (h : t ≠ .minus) (ts ts' : List Token) :
    (ts ++ t :: ts').count .minus = ts.count .minus + ts'.count .minus := by
  rw [List.count_append, List.count_cons_of_ne h]

private theorem count_minus_enclosed {t t' : Token} (h : t ≠ .minus) (h' : t' ≠ .minus)
    (ts : List Token) : (t :: (ts ++ [t'])).count .minus = ts.count .minus := by
  rw [List.count_cons_of_ne h, List.count_append, List.count_cons_of_ne h', List.count_nil,
    Nat.add_zero]

/-- **The tokens of a tree have a minus for every subtraction and every sign.** -/
theorem Expr.count_minus_tokens (e : Expr) : e.tokens.count .minus = e.minuses + e.signs := by
  induction e with
  | arith op l r ihl ihr =>
      rw [tokens, count_minus_enclosed Token.noConfusion Token.noConfusion, count_minus_arith,
        ihl, ihr, minuses, signs]
      omega
  | logic op l r ihl ihr =>
      rw [tokens, count_minus_enclosed Token.noConfusion Token.noConfusion,
        count_minus_between op.token_ne_minus, ihl, ihr, minuses, signs]
      omega
  | compare op l r ihl ihr =>
      rw [tokens, count_minus_enclosed Token.noConfusion Token.noConfusion,
        count_minus_between op.token_ne_minus, ihl, ihr, minuses, signs]
      omega
  | int n =>
      show (intTokens n).count .minus = 0 + (int n).signs
      rw [count_minus_intTokens, Nat.zero_add]
  | float x =>
      show (floatTokens x).count .minus = 0 + (float x).signs
      rw [count_minus_floatTokens, Nat.zero_add]
  | bool b =>
      rw [tokens, List.count_cons_of_ne (boolToken_ne_minus b)]
      rfl
  | var x =>
      rw [tokens, List.count_cons_of_ne (ofWord_ne_minus x)]
      rfl

private theorem Expr.count_minus_shownTokens (e : Expr) :
    e.shownTokens.count .minus = e.minuses + e.signs := by
  cases e with
  | compare op l r =>
      rw [shownTokens, count_minus_between op.token_ne_minus, count_minus_tokens,
        count_minus_tokens, minuses, signs]
      omega
  | _ => exact count_minus_tokens _

mutual

theorem Stmt.count_minus_tokens : ∀ s : Stmt, s.tokens.count .minus = s.minuses + s.signs
  | .block body => by
      rw [Stmt.tokens, count_minus_enclosed Token.noConfusion Token.noConfusion,
        Stmt.count_minus_allTokens, Stmt.minuses, Stmt.signs]
  | .empty => rfl
  | .assign x e => by
      rw [Stmt.tokens, List.count_cons_of_ne (ofWord_ne_minus x),
        count_minus_enclosed Token.noConfusion Token.noConfusion, Expr.count_minus_tokens,
        Stmt.minuses, Stmt.signs]
  | .print e => by
      rw [Stmt.tokens, count_minus_enclosed Token.noConfusion Token.noConfusion,
        Expr.count_minus_shownTokens, Stmt.minuses, Stmt.signs]
  | .ifThen c body => by
      rw [Stmt.tokens, List.count_cons_of_ne Token.noConfusion,
        List.count_cons_of_ne Token.noConfusion, count_minus_between Token.noConfusion,
        Expr.count_minus_tokens, Stmt.count_minus_tokens, Stmt.minuses, Stmt.signs]
      omega

theorem Stmt.count_minus_allTokens : ∀ ss : List Stmt,
    (Stmt.allTokens ss).count .minus = Stmt.allMinuses ss + Stmt.allSigns ss
  | [] => rfl
  | s :: rest => by
      rw [Stmt.allTokens, List.count_append, Stmt.count_minus_tokens, Stmt.count_minus_allTokens,
        Stmt.allMinuses, Stmt.allSigns]
      omega

end

/-! ### Minuses of a derivation -/

private theorem count_minus_of_derives {c : Category} {d : Nat} {ts : List Token} {e : Expr}
    (h : Derives c d ts e) : ts.count .minus = e.minuses := by
  induction h with
  | name | integer | float | trueWord | falseWord => rfl
  | sumGroup h ih | conditionGroup h ih =>
      rw [count_minus_enclosed Token.noConfusion Token.noConfusion, ih]
  | factor h ih | term h ih | value h ih | alone h ih | tested h ih => exact ih
  | scaled _ hl hr ihl ihr | added _ hl hr ihl ihr =>
      rw [count_minus_arith, ihl, ihr, Expr.minuses]
  | valuesCompared op hl hr ihl ihr | truthsCompared op hl hr ihl ihr =>
      rw [count_minus_between op.token_ne_minus, ihl, ihr, Expr.minuses]
  | connected op hl hr ihl ihr =>
      rw [count_minus_between op.token_ne_minus, ihl, ihr, Expr.minuses]

mutual

theorem count_minus_of_derivesStmt {d : Nat} {ts : List Token} {s : Stmt} :
    DerivesStmt d ts s → ts.count .minus = s.minuses
  | .empty => rfl
  | .assign x h => by
      rw [List.count_cons_of_ne Token.noConfusion,
        count_minus_enclosed Token.noConfusion Token.noConfusion, count_minus_of_derives h,
        Stmt.minuses]
  | .print h => by
      rw [count_minus_enclosed Token.noConfusion Token.noConfusion, count_minus_of_derives h,
        Stmt.minuses]
  | .ifThen hc hbody => by
      rw [List.count_cons_of_ne Token.noConfusion, List.count_cons_of_ne Token.noConfusion,
        count_minus_between Token.noConfusion, count_minus_of_derives hc,
        count_minus_of_derivesStmt hbody, Stmt.minuses]
  | .block h => by
      rw [count_minus_enclosed Token.noConfusion Token.noConfusion,
        count_minus_of_derivesStmts h, Stmt.minuses]

/-- **A minus in a derivation is a subtraction.** -/
theorem count_minus_of_derivesStmts {d : Nat} {ts : List Token} {ss : List Stmt} :
    DerivesStmts d ts ss → ts.count .minus = Stmt.allMinuses ss
  | .nil => rfl
  | .cons h hmore => by
      rw [List.count_append, count_minus_of_derivesStmt h, count_minus_of_derivesStmts hmore,
        Stmt.allMinuses]

end

/-! ### Trees that equal each other

Equal floats are the same but for the sign of a zero, and equal trees are the same but for such
floats in them.  If neither tree has a sign, they are the same.
-/

/-- The tree `p` is `q` again, but that zeros may have got a sign. -/
structure Expr.Echoes (q p : Expr) : Prop where
  spelled : p.Spelled
  minuses : p.minuses = q.minuses
  eq_of_unsigned : p.signs = 0 → p = q

private theorem Binary64.isWritten_of_beq {x y : Float} (hx : IsWritten x) (h : (x == y) = true) :
    IsWritten y := by
  obtain ⟨-, -, rfl | ⟨-, hy⟩⟩ := (beq_iff x y).mp h
  · exact hx
  · left
    rw [hy]
    decide

/-- Equal floats without a sign are the same. -/
theorem Binary64.eq_of_beq {x y : Float} (hx : isNegative x = false) (hy : isNegative y = false)
    (h : (x == y) = true) : x = y := by
  obtain ⟨-, -, heq | ⟨hx0, hy0⟩⟩ := (beq_iff x y).mp h
  · exact heq
  · exact ext (hx.trans hy.symm) (hx0.trans hy0.symm)

private theorem isNegative_of_signs {x : Float} (h : (Expr.float x).signs = 0) :
    Binary64.isNegative x = false := by
  unfold Expr.signs at h
  cases hx : Binary64.isNegative x with
  | false => rfl
  | true =>
      rw [hx] at h
      simp at h

/-- A node that joins two trees adds up what is counted, and `k` more subtractions. -/
theorem Expr.Echoes.join {make : Expr → Expr → Expr} {k : Nat} {l r l' r' : Expr}
    (hspelled : ∀ l r, l.Spelled ∧ r.Spelled → (make l r).Spelled)
    (hminuses : ∀ l r, (make l r).minuses = l.minuses + r.minuses + k)
    (hsigns : ∀ l r, (make l r).signs = l.signs + r.signs)
    (hl : l.Echoes l') (hr : r.Echoes r') : (make l r).Echoes (make l' r') := by
  refine ⟨hspelled _ _ ⟨hl.spelled, hr.spelled⟩, ?_, ?_⟩
  · rw [hminuses, hminuses, hl.minuses, hr.minuses]
  · intro hp
    rw [hsigns, Nat.add_eq_zero_iff] at hp
    rw [hl.eq_of_unsigned hp.1, hr.eq_of_unsigned hp.2]

/-- **A tree that equals one without signs is that one, but for the signs of zeros.** -/
theorem Expr.echoes_of_alike {q : Expr} (hq : q.Spelled) (hsigns : q.signs = 0) :
    ∀ {p : Expr}, q.alike p = true → q.Echoes p := by
  induction q with
  | arith op l r ihl ihr =>
      intro p h
      cases p with
      | arith op' l' r' =>
          simp only [alike, Bool.and_eq_true, beq_iff_eq] at h
          simp only [signs, Nat.add_eq_zero_iff] at hsigns
          obtain ⟨⟨rfl, hl⟩, hr⟩ := h
          exact .join (k := if op = .sub then 1 else 0) (fun _ _ => id) (fun _ _ => rfl)
            (fun _ _ => rfl) (ihl hq.1 hsigns.1 hl) (ihr hq.2 hsigns.2 hr)
      | _ => cases h
  | logic op l r ihl ihr =>
      intro p h
      cases p with
      | logic op' l' r' =>
          simp only [alike, Bool.and_eq_true, beq_iff_eq] at h
          simp only [signs, Nat.add_eq_zero_iff] at hsigns
          obtain ⟨⟨rfl, hl⟩, hr⟩ := h
          exact .join (k := 0) (fun _ _ => id) (fun _ _ => rfl) (fun _ _ => rfl)
            (ihl hq.1 hsigns.1 hl) (ihr hq.2 hsigns.2 hr)
      | _ => cases h
  | compare op l r ihl ihr =>
      intro p h
      cases p with
      | compare op' l' r' =>
          simp only [alike, Bool.and_eq_true, beq_iff_eq] at h
          simp only [signs, Nat.add_eq_zero_iff] at hsigns
          obtain ⟨⟨rfl, hl⟩, hr⟩ := h
          exact .join (k := 0) (fun _ _ => id) (fun _ _ => rfl) (fun _ _ => rfl)
            (ihl hq.1 hsigns.1 hl) (ihr hq.2 hsigns.2 hr)
      | _ => cases h
  | int n =>
      intro p h
      cases p with
      | int m =>
          have hm : n = m := beq_iff_eq.mp h
          exact ⟨trivial, rfl, fun _ => by rw [hm]⟩
      | _ => cases h
  | float x =>
      intro p h
      cases p with
      | float y =>
          have hx := isNegative_of_signs hsigns
          refine ⟨Binary64.isWritten_of_beq hq h, rfl, fun hp => ?_⟩
          rw [Binary64.eq_of_beq hx (isNegative_of_signs hp) h]
      | _ => cases h
  | bool b =>
      intro p h
      cases p with
      | bool b' =>
          have hb : b = b' := beq_iff_eq.mp h
          exact ⟨trivial, rfl, fun _ => by rw [hb]⟩
      | _ => cases h
  | var x =>
      intro p h
      cases p with
      | var y =>
          have hy : x = y := beq_iff_eq.mp h
          subst hy
          exact ⟨hq, rfl, fun _ => rfl⟩
      | _ => cases h

/-- The statement `p` is `q` again, but that zeros may have got a sign. -/
structure Stmt.Echoes (q p : Stmt) : Prop where
  spelled : p.Spelled
  minuses : p.minuses = q.minuses
  eq_of_unsigned : p.signs = 0 → p = q

/-- The statements `ps` are `qs` again, but that zeros may have got a sign. -/
structure Stmt.AllEcho (qs ps : List Stmt) : Prop where
  spelled : Stmt.AllSpelled ps
  minuses : Stmt.allMinuses ps = Stmt.allMinuses qs
  eq_of_unsigned : Stmt.allSigns ps = 0 → ps = qs

mutual

theorem Stmt.echoes_of_alike : ∀ {q p : Stmt}, q.Spelled → q.signs = 0 → q.alike p = true →
    q.Echoes p
  | .block body, .block body', hq, hsigns, h => by
      have hbody := Stmt.allEcho_of_alike hq hsigns h
      exact ⟨hbody.spelled, hbody.minuses, fun hp => by rw [hbody.eq_of_unsigned hp]⟩
  | .empty, .empty, _, _, _ => ⟨trivial, rfl, fun _ => rfl⟩
  | .assign x e, .assign x' e', hq, hsigns, h => by
      simp only [Stmt.alike, Bool.and_eq_true, beq_iff_eq] at h
      obtain ⟨rfl, he⟩ := h
      have he := Expr.echoes_of_alike hq.2 hsigns he
      exact ⟨⟨hq.1, he.spelled⟩, he.minuses, fun hp => by rw [he.eq_of_unsigned hp]⟩
  | .print e, .print e', hq, hsigns, h => by
      have he := Expr.echoes_of_alike hq hsigns h
      exact ⟨he.spelled, he.minuses, fun hp => by rw [he.eq_of_unsigned hp]⟩
  | .ifThen c body, .ifThen c' body', hq, hsigns, h => by
      simp only [Stmt.alike, Bool.and_eq_true] at h
      simp only [Stmt.signs, Nat.add_eq_zero_iff] at hsigns
      have hc := Expr.echoes_of_alike hq.1 hsigns.1 h.1
      have hbody := Stmt.echoes_of_alike hq.2 hsigns.2 h.2
      refine ⟨⟨hc.spelled, hbody.spelled⟩, ?_, ?_⟩
      · rw [Stmt.minuses, Stmt.minuses, hc.minuses, hbody.minuses]
      · intro hp
        simp only [Stmt.signs, Nat.add_eq_zero_iff] at hp
        rw [hc.eq_of_unsigned hp.1, hbody.eq_of_unsigned hp.2]

theorem Stmt.allEcho_of_alike : ∀ {qs ps : List Stmt}, Stmt.AllSpelled qs →
    Stmt.allSigns qs = 0 → Stmt.alikeAll qs ps = true → Stmt.AllEcho qs ps
  | [], [], _, _, _ => ⟨trivial, rfl, fun _ => rfl⟩
  | q :: qs, p :: ps, hq, hsigns, h => by
      simp only [Stmt.alikeAll, Bool.and_eq_true] at h
      simp only [Stmt.allSigns, Nat.add_eq_zero_iff] at hsigns
      have hfirst := Stmt.echoes_of_alike hq.1 hsigns.1 h.1
      have hrest := Stmt.allEcho_of_alike hq.2 hsigns.2 h.2
      refine ⟨⟨hfirst.spelled, hrest.spelled⟩, ?_, ?_⟩
      · rw [Stmt.allMinuses, Stmt.allMinuses, hfirst.minuses, hrest.minuses]
      · intro hp
        simp only [Stmt.allSigns, Nat.add_eq_zero_iff] at hp
        rw [hfirst.eq_of_unsigned hp.1, hrest.eq_of_unsigned hp.2]

end

end LoopFree
