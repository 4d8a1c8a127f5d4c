/-
Evaluation makes every check, from left to right.

What can go wrong with an expression is a list of checks: each variable has to be bound,
the operands of a connective have to be booleans, and an operator on numbers has to take
the values of its operands.  The order of the list is the order of evaluation.  An operand
comes before what is asked of it, and the left one before the right one; but a connective
asks for its left boolean before the right operand begins, where an operator on numbers
waits for both.

No check depends on how another one came out, save that what is asked of an operand is
asked of its value.  So evaluation fails with the first check of the list that fails, and
gives a value when all of them pass: nothing is skipped.
-/
import LoopFree.Eval
import LoopFree.Proofs.Binary64.Zero

namespace LoopFree

/-! ### The parts of an expression -/

namespace Expr

/-- The expression and what it is made of, operands before their operator. -/
def nodes : Expr → List Expr
  | arith op l r => l.nodes ++ r.nodes ++ [arith op l r]
  | logic op l r => l.nodes ++ r.nodes ++ [logic op l r]
  | compare op l r => l.nodes ++ r.nodes ++ [compare op l r]
  | e => [e]

/-- The variables in an expression, from left to right. -/
def names : Expr → List String
  | arith _ l r | logic _ l r | compare _ l r => l.names ++ r.names
  | var x => [x]
  | int _ | float _ | bool _ => []

end Expr

/-! ### What an operator on numbers takes

What an operator accepts has no order, but what it reports has one, since several things may be
wrong at once.  So both are said, and that they fit.
-/

/-- Zero, as an integer or as a float of either sign. -/
def Value.IsZero : Value → Prop
  | int n => n = 0
  | float x => x = 0 ∨ x = -0
  | bool _ => False

instance : (v : Value) → Decidable v.IsZero
  | .int n => inferInstanceAs (Decidable (n = 0))
  | .float x => inferInstanceAs (Decidable (x = 0 ∨ x = -0))
  | .bool _ => inferInstanceAs (Decidable False)

/-- The exact result on two integers, if there is one, fits into 64 bits. -/
def ArithOp.Fits (op : ArithOp) (m n : Int64) : Prop :=
  ∀ k ∈ op.exact m.toInt n.toInt, fitsInt64 k

instance (op : ArithOp) (m n : Int64) : Decidable (op.Fits m n) :=
  inferInstanceAs (Decidable (∀ k ∈ op.exact m.toInt n.toInt, fitsInt64 k))

/-- Both values are numbers, the divisor is not zero and the result on integers fits. -/
structure ArithOp.Accepts (op : ArithOp) (a b : Value) : Prop where
  left : a.kind ≠ .boolean
  right : b.kind ≠ .boolean
  divisor : op = .div → ¬b.IsZero
  range : ∀ m n, a = .int m → b = .int n → op.Fits m n

/-- What is wrong with two values for an operator. -/
def ArithOp.fault? (op : ArithOp) (a b : Value) : Option EvalError :=
  if a.kind = .boolean ∨ b.kind = .boolean then some (.typeMismatch op a.kind b.kind)
  else if op = .div ∧ b.IsZero then some .divisionByZero
  else
    match a, b with
    | .int m, .int n => if op.Fits m n then none else some (.overflow op m n)
    | _, _ => none

/-- Nothing is wrong with what an operator accepts, and with nothing else. -/
theorem ArithOp.fault?_eq_none_iff {op : ArithOp} {a b : Value} :
    op.fault? a b = none ↔ op.Accepts a b := by
  unfold fault?
  split
  · rename_i hkind
    simp only [reduceCtorEq, false_iff]
    exact fun h => hkind.elim h.left h.right
  · rename_i hkind
    obtain ⟨ha, hb⟩ := not_or.mp hkind
    split
    · rename_i hzero
      simp only [reduceCtorEq, false_iff]
      exact fun h => h.divisor hzero.1 hzero.2
    · rename_i hzero
      have hdivisor : op = .div → ¬b.IsZero := fun hop hb => hzero ⟨hop, hb⟩
      split
      · rename_i m n
        rw [ite_eq_left_iff, imp_iff_not_or]
        simp only [reduceCtorEq, or_false, not_not]
        refine ⟨fun h => ⟨ha, hb, hdivisor, fun m' n' hm hn => ?_⟩, fun h => h.range m n rfl rfl⟩
        cases hm
        cases hn
        exact h
      · rename_i hints
        exact iff_of_true rfl ⟨ha, hb, hdivisor, fun m n hm hn => (hints m n hm hn).elim⟩

/-! ### Failures -/

/-- How a computation failed, if it did. -/
def failureOf {α : Type} : Except EvalError α → Option EvalError
  | .ok _ => none
  | .error why => some why

private theorem failureOf_eq_none_iff {α : Type} {r : Except EvalError α} :
    failureOf r = none ↔ ∃ v, r = .ok v := by
  cases r <;> simp [failureOf]

private theorem failureOf_eq_some_iff {α : Type} {r : Except EvalError α} {why : EvalError} :
    failureOf r = some why ↔ r = .error why := by
  cases r <;> simp [failureOf]

private theorem failureOf_onFloats (op : ArithOp) (x y : Float) :
    failureOf (op.onFloats x y) = if op = .div ∧ (y = 0 ∨ y = -0) then some .divisionByZero
      else none := by
  cases op with
  | div =>
      rw [ArithOp.onFloats]
      simp only [Binary64.beq_zero_iff, true_and]
      split <;> rfl
  | _ => rfl

/-- An integer is zero as a float only if it is zero. -/
theorem floatOfInt_zero_iff {n : Int64} :
    (floatOfInt n = 0 ∨ floatOfInt n = -0) ↔ n = 0 := by
  rw [← Binary64.index_eq_zero_iff, floatOfInt, Binary64.index_ofInt_eq_zero_iff,
    ← Int64.toInt_zero, Int64.toInt_inj]

private theorem failureOf_onInts (op : ArithOp) (m n : Int64) :
    failureOf (op.onInts m n) = if op = .div ∧ n = 0 then some .divisionByZero
      else if op.Fits m n then none else some (.overflow op m n) := by
  cases op with
  | div =>
      have hfits : ArithOp.Fits .div m n := fun k hk => by cases hk
      rw [if_pos hfits]
      exact (failureOf_onFloats .div _ _).trans (by simp only [floatOfInt_zero_iff])
  | _ =>
      simp only [ArithOp.onInts, ArithOp.Fits, ArithOp.exact, Option.mem_def,
        Option.some.injEq, forall_eq', reduceCtorEq, false_and, if_false]
      split <;> rfl

/-- **An operator fails for what is wrong with its operands, and for nothing else.** -/
theorem failureOf_apply (op : ArithOp) (a b : Value) :
    failureOf (op.apply a b) = op.fault? a b := by
  cases a with
  | bool => rfl
  | int m =>
      cases b with
      | bool => rfl
      | int n => exact failureOf_onInts op m n
      | float y => exact failureOf_onFloats op _ y
  | float x =>
      cases b with
      | bool => rfl
      | int n =>
          refine (failureOf_onFloats op x _).trans ?_
          simp only [floatOfInt_zero_iff]
          rfl
      | float y => exact failureOf_onFloats op x y

/-! ### The checks

Evaluation ends at its first failure, and so the order of its checks can be seen from outside.
`Expr.checks` lists them without evaluating anything: a variable where it stands, and an operator
behind its operands, except that a connective looks at its left operand before it turns to the
right one.
-/

/-- What evaluation checks. -/
inductive Check
  /-- A variable is bound. -/
  | bound (name : String)
  /-- An operand of a connective is a boolean. -/
  | boolean (operand : Expr)
  /-- An operator takes the values of its operands. -/
  | operands (op : ArithOp) (left right : Expr)

/-- The checks of an expression, in the order in which they are made. -/
def Expr.checks : Expr → List Check
  | arith op l r => l.checks ++ (r.checks ++ [.operands op l r])
  | logic _ l r => l.checks ++ (.boolean l :: (r.checks ++ [.boolean r]))
  | compare _ l r => l.checks ++ r.checks
  | var x => [.bound x]
  | int _ | float _ | bool _ => []

section Values

variable (config : Config) (env : Environment)

/-- What a check finds.  Of an operand without a value it finds nothing. -/
def Check.fault? : Check → Option EvalError
  | bound x => if (env.get? x).isSome then none else some (.undefinedVariable x)
  | boolean e =>
      match e.eval config env with
      | .ok v => if v.kind = .boolean then none else some (.notABoolean v.kind)
      | .error _ => none
  | operands op l r =>
      match l.eval config env, r.eval config env with
      | .ok a, .ok b => (config.subtraction.reading op).fault? a b
      | _, _ => none

/-- The values of the operands are what the operator or the connective takes. -/
def Expr.PassesCheck : Expr → Prop
  | arith op l r => ∀ a b, l.eval config env = .ok a → r.eval config env = .ok b →
      (config.subtraction.reading op).Accepts a b
  | logic _ l r => ∀ v, l.eval config env = .ok v ∨ r.eval config env = .ok v →
      v.kind = .boolean
  | _ => True

/-- **Evaluation fails with the first check that fails.** -/
theorem failureOf_eval (e : Expr) :
    failureOf (e.eval config env) = e.checks.findSome? (Check.fault? config env) := by
  induction e with
  | arith op l r ihl ihr =>
      rw [Expr.checks, List.findSome?_append, List.findSome?_append, ← ihl, ← ihr, Expr.eval]
      simp only [List.findSome?_cons, List.findSome?_nil, Check.fault?]
      cases l.eval config env with
      | error why => rfl
      | ok a =>
          cases r.eval config env with
          | error why => rfl
          | ok b =>
              refine (failureOf_apply _ a b).trans ?_
              simp only [failureOf, Option.none_or]
              cases (config.subtraction.reading op).fault? a b <;> rfl
  | logic op l r ihl ihr =>
      simp only [Expr.checks, List.findSome?_append, List.findSome?_cons, List.findSome?_nil,
        ← ihl, ← ihr, Expr.eval, Check.fault?]
      cases l.eval config env with
      | error why => rfl
      | ok a =>
          cases a with
          | int | float => rfl
          | bool x =>
              cases r.eval config env with
              | error why => rfl
              | ok b => cases b <;> rfl
  | compare op l r ihl ihr =>
      rw [Expr.checks, List.findSome?_append, ← ihl, ← ihr, Expr.eval]
      cases l.eval config env with
      | error why => rfl
      | ok a => cases r.eval config env <;> rfl
  | var x =>
      simp only [Expr.checks, List.findSome?_cons, List.findSome?_nil, Check.fault?, Expr.eval]
      cases env.get? x <;> rfl
  | int | float | bool => rfl

private theorem Check.fault?_bound_eq_none_iff {x : String} :
    (bound x).fault? config env = none ↔ (env.get? x).isSome := by
  rw [fault?]
  split <;> simp_all

private theorem Check.fault?_boolean_eq_none_iff {e : Expr} :
    (boolean e).fault? config env = none ↔
      ∀ v, e.eval config env = .ok v → v.kind = .boolean := by
  rw [fault?]
  split
  · rename_i v hv
    simp only [ite_eq_left_iff, reduceCtorEq, imp_false, not_not, hv, Except.ok.injEq, forall_eq']
  · rename_i why hwhy
    simp only [hwhy, reduceCtorEq, false_imp_iff, implies_true]

private theorem Check.fault?_operands_eq_none_iff {op : ArithOp} {l r : Expr} :
    (operands op l r).fault? config env = none ↔
      (Expr.arith op l r).PassesCheck config env := by
  rw [fault?, Expr.PassesCheck]
  split
  · rename_i a b ha hb
    rw [ArithOp.fault?_eq_none_iff]
    refine ⟨fun h a' b' ha' hb' => ?_, fun h => h a b ha hb⟩
    cases ha.symm.trans ha'
    cases hb.symm.trans hb'
    exact h
  · rename_i hvalues
    exact iff_of_true rfl fun a b ha hb => (hvalues a b ha hb).elim

/-- All checks pass when all variables are bound and every operator takes its operands. -/
theorem checks_pass_iff (e : Expr) :
    (∀ c ∈ e.checks, c.fault? config env = none) ↔
      (∀ x ∈ e.names, (env.get? x).isSome) ∧ ∀ s ∈ e.nodes, s.PassesCheck config env := by
  induction e with
  | arith op l r ihl ihr =>
      simp only [Expr.checks, Expr.names, Expr.nodes, List.forall_mem_append,
        List.forall_mem_singleton, ihl, ihr, Check.fault?_operands_eq_none_iff]
      tauto
  | logic op l r ihl ihr =>
      simp only [Expr.checks, Expr.names, Expr.nodes, List.forall_mem_append,
        List.forall_mem_singleton, List.forall_mem_cons, ihl, ihr,
        Check.fault?_boolean_eq_none_iff, Expr.PassesCheck, or_imp, forall_and]
      tauto
  | compare op l r ihl ihr =>
      simp only [Expr.checks, Expr.names, Expr.nodes, List.forall_mem_append,
        List.forall_mem_singleton, ihl, ihr, Expr.PassesCheck]
      tauto
  | var x =>
      simp only [Expr.checks, Expr.names, Expr.nodes, List.forall_mem_singleton,
        Check.fault?_bound_eq_none_iff, Expr.PassesCheck, and_true]
  | int | float | bool => simp [Expr.checks, Expr.names, Expr.nodes, Expr.PassesCheck]

/-- **Evaluation is strict and goes from left to right.**  It gives a value exactly when
every variable is bound and every operator takes what its operands come to, and else it
fails with the first check that fails. -/
theorem eval_strict (e : Expr) :
    ((∃ v, e.eval config env = .ok v) ↔
      (∀ x ∈ e.names, (env.get? x).isSome) ∧ ∀ s ∈ e.nodes, s.PassesCheck config env) ∧
    ∀ why, e.eval config env = .error why ↔
      e.checks.findSome? (Check.fault? config env) = some why := by
  refine ⟨?_, fun why => ?_⟩
  · rw [← failureOf_eq_none_iff, failureOf_eval, List.findSome?_eq_none_iff, checks_pass_iff]
  · rw [← failureOf_eq_some_iff, failureOf_eval]

-- The left operand settles what the connective gives, and the right one is still evaluated.
example (x : String) :
    (Expr.logic .and (.bool false) (.var x)).eval config .empty = .error (.undefinedVariable x) :=
  rfl

end Values

end LoopFree
