/-
The kind of an expression.

An expression has a kind that the kinds of its variables decide, without a value being
looked at: numbers make numbers, booleans make booleans, and what can be compared makes a
boolean.  Some have none, because a boolean stands where a number is needed or the other
way round, no matter how deep and no matter what stands beside it.

Evaluation keeps to that.  With a kind there is a value of it, or a division by zero or an
overflow stands in the way; without a kind evaluation fails.  One lemma says it for one
operation that waits for a value, `KeepsKind.bind`, and the induction over the expression
strings it together.
-/
import LoopFree.Eval

namespace LoopFree

/-! ### Kinds without values

Nothing in a program declares a kind.  Still the operators decide, from the kinds of the variables
alone, which kind a value will have if there is one.
-/

/-- The kind of an operator on numbers: a float from a division or a float, and else an
integer. -/
def ArithOp.kind? (op : ArithOp) : ValueKind → ValueKind → Option ValueKind
  | .boolean, _ | _, .boolean => none
  | .integer, .integer => some (if op = .div then .float else .integer)
  | .float, _ | _, .float => some .float

/-- The kind of a connective. -/
def LogicOp.kind? : ValueKind → ValueKind → Option ValueKind
  | .boolean, .boolean => some .boolean
  | _, _ => none

/-- The kind of an expression whose variables are of these kinds. -/
def Expr.kind? (kinds : String → Option ValueKind) : Expr → Option ValueKind
  | arith op l r => do op.kind? (← l.kind? kinds) (← r.kind? kinds)
  | logic _ l r => do LogicOp.kind? (← l.kind? kinds) (← r.kind? kinds)
  | compare _ l r => do
      let _ ← l.kind? kinds
      let _ ← r.kind? kinds
      return .boolean
  | int _ => some .integer
  | float _ => some .float
  | bool _ => some .boolean
  | var x => kinds x

/-- The kind of what a variable holds. -/
def Environment.kind? (env : Environment) (x : String) : Option ValueKind :=
  (env.get? x).map Value.kind

/-- Reading `-` as `+` does not change a kind. -/
theorem SubtractionMode.kind?_reading (mode : SubtractionMode) (op : ArithOp) (k k' : ValueKind) :
    (mode.reading op).kind? k k' = op.kind? k k' := by
  cases mode <;> cases op <;> rfl

/-! ### One operation

Whether a division is by zero, or a sum too great, depends on values and not on kinds.  All other
errors are ruled out by a kind, and `KeepsKind` says that of any computation, so that it can be
handed on from operands to operators.
-/

/-- The error is about the values of numbers and not about kinds or names. -/
def EvalError.IsNumeric : EvalError → Prop
  | divisionByZero => True
  | overflow _ _ _ => True
  | _ => False

private theorem EvalError.IsNumeric.cases {why : EvalError} (h : why.IsNumeric) :
    why = .divisionByZero ∨ ∃ op a b, why = .overflow op a b := by
  cases why with
  | divisionByZero => exact Or.inl rfl
  | overflow op a b => exact Or.inr ⟨op, a, b, rfl⟩
  | _ => cases h

/-- With a kind there is a value of it or a numeric error, and without one an error. -/
def KeepsKind : Option ValueKind → Except EvalError Value → Prop
  | some k, .ok v => v.kind = k
  | some _, .error why => why.IsNumeric
  | none, .ok _ => False
  | none, .error _ => True

section Outcomes

variable {r : Except EvalError Value}

private theorem KeepsKind.of_some {k : ValueKind} (h : KeepsKind (some k) r) :
    (∃ v, r = .ok v ∧ v.kind = k) ∨ r = .error .divisionByZero ∨
      ∃ op a b, r = .error (.overflow op a b) := by
  cases r with
  | ok v => exact Or.inl ⟨v, rfl, h⟩
  | error why =>
      obtain rfl | ⟨op, a, b, rfl⟩ := EvalError.IsNumeric.cases h
      · exact Or.inr (Or.inl rfl)
      · exact Or.inr (Or.inr ⟨op, a, b, rfl⟩)

private theorem KeepsKind.of_none (h : KeepsKind none r) : ∃ why, r = .error why := by
  cases r with
  | ok v => exact h.elim
  | error why => exact ⟨why, rfl⟩

private theorem KeepsKind.eq_some {k : Option ValueKind} {v : Value} (h : KeepsKind k (.ok v)) :
    k = some v.kind := by
  cases k with
  | none => exact h.elim
  | some k => exact congrArg some (Eq.symm h)

end Outcomes

/-- What goes on with a value goes on with its kind. -/
theorem KeepsKind.bind {k : Option ValueKind} {r : Except EvalError Value}
    {f : ValueKind → Option ValueKind} {g : Value → Except EvalError Value}
    (h : KeepsKind k r) (hg : ∀ v, KeepsKind (f v.kind) (g v)) : KeepsKind (k >>= f) (r >>= g) := by
  cases k with
  | none =>
      cases r with
      | ok v => exact h.elim
      | error why => exact trivial
  | some k =>
      cases r with
      | ok v =>
          obtain rfl : v.kind = k := h
          exact hg v
      | error why =>
          show KeepsKind (f k) (.error why)
          cases f k with
          | none => exact trivial
          | some k' => exact h

private theorem onFloats_keepsKind (op : ArithOp) (x y : Float) :
    KeepsKind (some .float) (op.onFloats x y) := by
  cases op with
  | div =>
      rw [ArithOp.onFloats]
      split
      · exact trivial
      · exact rfl
  | _ => exact rfl

private theorem onInts_keepsKind (op : ArithOp) (m n : Int64) :
    KeepsKind (op.kind? .integer .integer) (op.onInts m n) := by
  cases op with
  | div => exact onFloats_keepsKind .div _ _
  | _ =>
      simp only [ArithOp.onInts, ArithOp.exact]
      split
      · exact rfl
      · exact trivial

/-- **An operator on numbers keeps to the kinds of its operands.** -/
theorem apply_keepsKind (op : ArithOp) (a b : Value) :
    KeepsKind (op.kind? a.kind b.kind) (op.apply a b) := by
  cases a with
  | bool => exact trivial
  | int m =>
      cases b with
      | bool => exact trivial
      | int n => exact onInts_keepsKind op m n
      | float y => exact onFloats_keepsKind op _ y
  | float x =>
      cases b with
      | bool => exact trivial
      | int n => exact onFloats_keepsKind op x _
      | float y => exact onFloats_keepsKind op x y

/-! ### Booleans -/

private theorem Value.kind_of_asBool {v : Value} {b : Bool} (h : v.asBool = .ok b) :
    v.kind = .boolean := by
  cases v with
  | bool _ => rfl
  | int | float => cases h

private theorem Value.asBool_of_ne {v : Value} (h : v.kind ≠ .boolean) :
    v.asBool = .error (.notABoolean v.kind) := by
  cases v with
  | bool _ => exact (h rfl).elim
  | int | float => rfl

/-! ### Expressions -/

section Values

variable (config : Config) (env : Environment)

/-- **Evaluation keeps to the kind of the expression.** -/
theorem eval_keepsKind (e : Expr) : KeepsKind (e.kind? env.kind?) (e.eval config env) := by
  induction e with
  | arith op l r ihl ihr =>
      refine ihl.bind fun a => ihr.bind fun b => ?_
      rw [← config.subtraction.kind?_reading]
      exact apply_keepsKind _ a b
  | logic op l r ihl ihr =>
      refine ihl.bind fun a => ?_
      -- A number on the left ends the evaluation, whatever kind the right operand has.
      cases a with
      | int | float => cases r.kind? env.kind? <;> exact trivial
      | bool x =>
          refine ihr.bind fun b => ?_
          cases b with
          | int | float => exact trivial
          | bool y => exact rfl
  | compare op l r ihl ihr => exact ihl.bind fun a => ihr.bind fun b => rfl
  | var x =>
      rw [Expr.kind?, Environment.kind?, Expr.eval]
      cases env.get? x with
      | none => exact trivial
      | some v => exact rfl
  | int | float | bool => exact rfl

/-- **Kinds are decided without evaluating.**  An expression with a kind has a value of that
kind, or fails because of a division by zero or an overflow; one without fails.  A boolean is
had from it only if that is its kind, and a number of another kind is named in the error. -/
theorem eval_kind (e : Expr) :
    (∀ k, e.kind? env.kind? = some k →
      (∃ v, e.eval config env = .ok v ∧ v.kind = k) ∨
        e.eval config env = .error .divisionByZero ∨
        ∃ op a b, e.eval config env = .error (.overflow op a b)) ∧
    (e.kind? env.kind? = none → ∃ why, e.eval config env = .error why) ∧
    (∀ b, e.evalBool config env = .ok b → e.kind? env.kind? = some .boolean) ∧
    ∀ k v, e.kind? env.kind? = some k → k ≠ .boolean → e.eval config env = .ok v →
      e.evalBool config env = .error (.notABoolean k) := by
  have hkeeps := eval_keepsKind config env e
  refine ⟨fun k hk => (hk ▸ hkeeps).of_some, fun hk => (hk ▸ hkeeps).of_none,
    fun b hb => ?_, fun k v hk hnumber hv => ?_⟩
  · rw [Expr.evalBool] at hb
    cases hv : e.eval config env with
    | error why =>
        rw [hv] at hb
        cases hb
    | ok v =>
        rw [hv] at hb hkeeps
        rw [hkeeps.eq_some, Value.kind_of_asBool hb]
  · rw [hk, hv] at hkeeps
    obtain rfl : v.kind = k := hkeeps
    rw [Expr.evalBool, hv]
    exact Value.asBool_of_ne hnumber

end Values

/-- A difference, which is no condition; a comparison of it, which is one; and a sum of unlike
operands, which a left operand that settles the answer does not hide. -/
theorem eval_kind_comparison :
    let env := Environment.empty.set "x" (.int 7)
    let rest := Expr.arith .sub (.var "x") (.int 2)
    let isFive := Expr.compare .eq rest (.int 5)
    let mixed := Expr.logic .or (.bool true) (.compare .eq rest (.arith .add (.int 1) (.bool true)))
    (rest.eval .default env = .ok (.int 5) ∧
        rest.evalBool .default env = .error (.notABoolean .integer)) ∧
      (isFive.evalBool .default env = .ok true ∧ isFive.kind? env.kind? = some .boolean) ∧
      mixed.kind? env.kind? = none ∧ ∃ why, mixed.eval .default env = .error why := by
  intro env rest isFive mixed
  have hrest : rest.eval .default env = .ok (.int 5) := rfl
  have htrue : isFive.evalBool .default env = .ok true := rfl
  have hnone : mixed.kind? env.kind? = none := rfl
  obtain ⟨-, -, -, hnumber⟩ := eval_kind .default env rest
  obtain ⟨-, -, hboolean, -⟩ := eval_kind .default env isFive
  obtain ⟨-, hfails, -, -⟩ := eval_kind .default env mixed
  exact ⟨⟨hrest, hnumber .integer (.int 5) rfl (by decide) hrest⟩,
    ⟨htrue, hboolean true htrue⟩, hnone, hfails hnone⟩

end LoopFree
