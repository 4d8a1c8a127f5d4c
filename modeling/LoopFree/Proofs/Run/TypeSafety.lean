/-
Accepted programs never meet a value of the wrong kind.

Booleans live in conditions and in what a comparison shows, and from neither does one get
into a variable.  So as long as no variable holds a boolean, arithmetic works on numbers
only and can fail for their values but not for their kinds; and what is assigned is the
value of arithmetic, so no variable gets a boolean either.  That no variable holds one is
the invariant: every statement of a well-formed program keeps it, at every point that its
run passes.  A condition holds no variable at all, and its value is always the same.
-/
import LoopFree.Proofs.Syntax.Form
import LoopFree.Proofs.Eval.Kinds
import LoopFree.Run

namespace LoopFree

/-- The error does not say that a value is of the wrong kind. -/
def EvalError.KindSafe : EvalError → Prop
  | typeMismatch _ _ _ => False
  | notABoolean _ => False
  | _ => True

/-- No variable holds a boolean. -/
def Environment.NoBooleans (env : Environment) : Prop :=
  ∀ x v, env.get? x = some v → v.kind ≠ .boolean

private theorem Environment.noBooleans_empty : Environment.empty.NoBooleans := by
  intro x v h
  cases h

private theorem Environment.NoBooleans.set {env : Environment} (h : env.NoBooleans) (x : String)
    {v : Value} (hv : v.kind ≠ .boolean) : (env.set x v).NoBooleans := by
  intro y w hw
  rw [get?_set] at hw
  by_cases hy : y = x
  · rw [if_pos hy] at hw
    cases hw
    exact hv
  · rw [if_neg hy] at hw
    exact h y w hw

/-! ### Expressions

The grammar keeps comparisons and connectives out of arithmetic, and that is all the type checking
there is.  It suffices as long as no variable holds a boolean.
-/

/-- A value of which `P` holds, or an error that is not about kinds. -/
def KindSafely (P : Value → Prop) : Except EvalError Value → Prop
  | .ok v => P v
  | .error why => why.KindSafe

/-- The value is a number. -/
def Value.IsNumber (v : Value) : Prop :=
  v.kind ≠ .boolean

private theorem Value.isNumber_int (n : Int64) : (Value.int n).IsNumber :=
  ValueKind.noConfusion

private theorem Value.isNumber_float (x : Float) : (Value.float x).IsNumber :=
  ValueKind.noConfusion

theorem KindSafely.bind {P Q : Value → Prop} {r : Except EvalError Value}
    {f : Value → Except EvalError Value} (hr : KindSafely P r)
    (hf : ∀ v, P v → KindSafely Q (f v)) : KindSafely Q (r >>= f) := by
  cases r with
  | error why => exact hr
  | ok v => exact hf v hr

private theorem EvalError.IsNumeric.kindSafe {why : EvalError} (h : why.IsNumeric) :
    why.KindSafe := by
  cases why with
  | divisionByZero | overflow => exact trivial
  | _ => cases h

/-- The kind of an operator on two numbers is that of a number. -/
theorem ArithOp.kind?_of_isNumber (op : ArithOp) {a b : Value} (ha : a.IsNumber)
    (hb : b.IsNumber) : ∃ k, op.kind? a.kind b.kind = some k ∧ k ≠ .boolean := by
  cases a with
  | bool => exact absurd rfl ha
  | int =>
      cases b with
      | bool => exact absurd rfl hb
      | int => cases op <;> exact ⟨_, rfl, ValueKind.noConfusion⟩
      | float => exact ⟨_, rfl, ValueKind.noConfusion⟩
  | float =>
      cases b with
      | bool => exact absurd rfl hb
      | int | float => exact ⟨_, rfl, ValueKind.noConfusion⟩

/-- An operator on two numbers does not fail for their kinds. -/
theorem apply_kindSafely (op : ArithOp) {a b : Value} (ha : a.IsNumber) (hb : b.IsNumber) :
    KindSafely Value.IsNumber (op.apply a b) := by
  obtain ⟨k, hk, hnumber⟩ := op.kind?_of_isNumber ha hb
  have hkeeps := apply_keepsKind op a b
  rw [hk] at hkeeps
  cases hr : op.apply a b with
  | ok v =>
      rw [hr] at hkeeps
      obtain rfl : v.kind = k := hkeeps
      exact hnumber
  | error why =>
      rw [hr] at hkeeps
      exact EvalError.IsNumeric.kindSafe hkeeps

section Values

variable (config : Config) {env : Environment} (henv : env.NoBooleans)
include henv

/-- **Arithmetic over variables that hold no boolean makes numbers.** -/
theorem eval_kindSafely {e : Expr} (h : e.IsArithmetic) :
    KindSafely Value.IsNumber (e.eval config env) := by
  induction e with
  | arith op l r ihl ihr =>
      refine (ihl h.1).bind fun a ha => ?_
      refine (ihr h.2).bind fun b hb => ?_
      exact apply_kindSafely _ ha hb
  | int n => exact Value.isNumber_int n
  | float x => exact Value.isNumber_float x
  | var x =>
      rw [Expr.eval]
      cases hx : env.get? x with
      | none => exact trivial
      | some v => exact henv x v hx
  | logic | compare | bool => cases h

/-- What a `print` shows does not fail for kinds. -/
theorem shown_kindSafely {e : Expr} (h : e.IsShown) :
    KindSafely (fun _ => True) (e.eval config env) := by
  have hnumber : ∀ {e : Expr}, e.IsArithmetic → KindSafely (fun _ => True) (e.eval config env) := by
    intro e he
    have hsafe := eval_kindSafely config henv he
    cases hv : e.eval config env with
    | error why => rwa [hv] at hsafe
    | ok v => exact trivial
  cases e with
  | compare op l r =>
      refine (hnumber h.1).bind fun a _ => ?_
      refine (hnumber h.2).bind fun b _ => ?_
      exact trivial
  | _ => exact hnumber h

end Values

/-- **A condition has one value**, whatever the variables hold and however `-` is read. -/
theorem exists_eval_condition {e : Expr} (h : e.IsCondition) :
    ∃ b, ∀ config env, e.eval config env = .ok (.bool b) := by
  induction e with
  | logic op l r ihl ihr =>
      obtain ⟨a, ha⟩ := ihl h.1
      obtain ⟨b, hb⟩ := ihr h.2
      refine ⟨op.apply a b, fun config env => ?_⟩
      rw [Expr.eval, ha, hb]
      rfl
  | compare op l r ihl ihr =>
      obtain ⟨a, ha⟩ := ihl h.1
      obtain ⟨b, hb⟩ := ihr h.2
      refine ⟨op.apply (.bool a) (.bool b), fun config env => ?_⟩
      rw [Expr.eval, ha, hb]
      rfl
  | bool b => exact ⟨b, fun _ _ => rfl⟩
  | arith | int | float | var => cases h

/-! ### Runs

And no variable ever does, because what is assigned is arithmetic.  The invariant is what the next
statement needs of the variables, so it goes through blocks, conditionals and failures alike.
-/

/-- A run from variables that hold no boolean leaves them so, and does not fail for kinds. -/
structure Outcome.Safe (o : Outcome) : Prop where
  env : o.machine.env.NoBooleans
  failure : ∀ why, o.failure = some why → why.KindSafe

theorem Outcome.Safe.ok {m : Machine} (h : m.env.NoBooleans) : Outcome.Safe ⟨m, none⟩ :=
  ⟨h, fun _ hw => by cases hw⟩

theorem Outcome.Safe.error {m : Machine} (h : m.env.NoBooleans) {why : EvalError}
    (hwhy : why.KindSafe) : Outcome.Safe ⟨m, some why⟩ :=
  ⟨h, fun _ hw => by cases hw; exact hwhy⟩

/-- A failure to write is not about kinds. -/
theorem Outcome.Safe.output {m : Machine} (h : m.env.NoBooleans) (failure : Option SinkFailure) :
    Outcome.Safe ⟨m, failure.map .output⟩ := by
  cases failure with
  | none => exact .ok h
  | some why => exact .error h trivial

section Runs

variable (config : Config)

mutual

/-- **A statement of an accepted program keeps booleans out of the variables.** -/
theorem run_safe : ∀ (s : Stmt), s.WellFormed → ∀ m : Machine, m.env.NoBooleans →
    (s.run config m).Safe
  | .block body, h, m, henv => runAll_safe body h m henv
  | .empty, _, m, henv => .ok henv
  | .assign x e, h, m, henv => by
      have hsafe := eval_kindSafely config henv h.2
      rw [Stmt.run]
      cases hv : e.eval config m.env with
      | error why =>
          rw [hv] at hsafe
          exact .error henv hsafe
      | ok v =>
          rw [hv] at hsafe
          exact .ok (henv.set x hsafe)
  | .print e, h, m, henv => by
      have hsafe := shown_kindSafely config henv h
      rw [Stmt.run]
      cases hv : e.eval config m.env with
      | error why =>
          rw [hv] at hsafe
          exact .error henv hsafe
      | ok v =>
          exact Outcome.Safe.output (m := ⟨m.env, (m.sink.write (v.text ++ "\n")).1⟩) henv _
  | .ifThen c body, h, m, henv => by
      obtain ⟨b, hb⟩ := exists_eval_condition h.1
      have hbool : c.evalBool config m.env = .ok b := by
        rw [Expr.evalBool, hb]
        rfl
      rw [Stmt.run, hbool]
      cases b with
      | true => exact run_safe body h.2 m henv
      | false => exact .ok henv

theorem runAll_safe : ∀ (ss : List Stmt), Stmt.AllWellFormed ss → ∀ m : Machine,
    m.env.NoBooleans → (Stmt.runAll config ss m).Safe
  | [], _, m, henv => .ok henv
  | s :: rest, h, m, henv => by
      have hfirst := run_safe s h.1 m henv
      rw [Stmt.runAll]
      split
      · rename_i m' hrun
        rw [hrun] at hfirst
        exact runAll_safe rest h.2 m' hfirst.env
      · exact hfirst

end

/-! ### The points of a run

That no variable holds a boolean in the end does not say that none did before.  So all machines
are considered that a run passes, down to those in the middle of a block.
-/

mutual

/-- A machine that the run of a statement passes, from its start to its end. -/
inductive Stmt.Passes : Stmt → Machine → Machine → Prop
  | start (s : Stmt) (m : Machine) : Passes s m m
  | stop (s : Stmt) (m : Machine) : Passes s m (s.run config m).machine
  | block {body : List Stmt} {m m' : Machine} (h : Stmt.PassesAll body m m') :
      Passes (.block body) m m'
  | ifThen {c : Expr} {body : Stmt} {m m' : Machine} (hc : c.evalBool config m.env = .ok true)
      (h : Passes body m m') : Passes (.ifThen c body) m m'

/-- A machine that the run of statements one after another passes. -/
inductive Stmt.PassesAll : List Stmt → Machine → Machine → Prop
  | start (ss : List Stmt) (m : Machine) : PassesAll ss m m
  | first {s : Stmt} {rest : List Stmt} {m m' : Machine} (h : Stmt.Passes s m m') :
      PassesAll (s :: rest) m m'
  | later {s : Stmt} {rest : List Stmt} {m m₁ m' : Machine} (hrun : s.run config m = ⟨m₁, none⟩)
      (h : PassesAll rest m₁ m') : PassesAll (s :: rest) m m'

end

mutual

/-- **No point of a run has a boolean in a variable.** -/
theorem noBooleans_of_passes {s : Stmt} {m m' : Machine} : Stmt.Passes config s m m' →
    s.WellFormed → m.env.NoBooleans → m'.env.NoBooleans
  | .start _ _, _, henv => henv
  | .stop _ _, h, henv => (run_safe config s h m henv).env
  | .block hpass, h, henv => noBooleans_of_passesAll hpass h henv
  | .ifThen _ hpass, h, henv => noBooleans_of_passes hpass h.2 henv

theorem noBooleans_of_passesAll {ss : List Stmt} {m m' : Machine} :
    Stmt.PassesAll config ss m m' → Stmt.AllWellFormed ss → m.env.NoBooleans →
      m'.env.NoBooleans
  | .start _ _, _, henv => henv
  | .first hpass, h, henv => noBooleans_of_passes hpass h.1 henv
  | @Stmt.PassesAll.later _ s _ _ _ _ hrun hpass, h, henv => by
      have hfirst := run_safe config s h.1 _ henv
      rw [hrun] at hfirst
      exact noBooleans_of_passesAll hpass h.2 hfirst.env

end

/-- The end of a run is one of its points. -/
theorem passesAll_runAll (ss : List Stmt) :
    ∀ m, Stmt.PassesAll config ss m (Stmt.runAll config ss m).machine := by
  induction ss with
  | nil => exact fun m => .start [] m
  | cons s rest ih =>
      intro m
      rw [Stmt.runAll]
      split
      · rename_i m' hrun
        exact .later hrun (ih m')
      · exact .first (.stop s m)

end Runs

/-! ### Conditions

A condition holds no variable.  Its value belongs to the program text, and no run can make it
fail.
-/

mutual

/-- The conditions of the conditionals in a statement. -/
def Stmt.conditions : Stmt → List Expr
  | .block body => Stmt.allConditions body
  | .ifThen c body => c :: body.conditions
  | _ => []

/-- The conditions of the conditionals in a list of statements. -/
def Stmt.allConditions : List Stmt → List Expr
  | [] => []
  | s :: rest => s.conditions ++ Stmt.allConditions rest

end

mutual

theorem isCondition_of_mem_conditions : ∀ (s : Stmt), s.WellFormed → ∀ c ∈ s.conditions,
    c.IsCondition
  | .block body, h, c, hc => isCondition_of_mem_allConditions body h c hc
  | .empty, _, c, hc => by cases hc
  | .assign _ _, _, c, hc => by cases hc
  | .print _, _, c, hc => by cases hc
  | .ifThen e body, h, c, hc => by
      rcases List.mem_cons.mp hc with rfl | hc
      · exact h.1
      · exact isCondition_of_mem_conditions body h.2 c hc

theorem isCondition_of_mem_allConditions : ∀ (ss : List Stmt), Stmt.AllWellFormed ss →
    ∀ c ∈ Stmt.allConditions ss, c.IsCondition
  | [], _, c, hc => by cases hc
  | s :: rest, h, c, hc => by
      rcases List.mem_append.mp hc with hc | hc
      · exact isCondition_of_mem_conditions s h.1 c hc
      · exact isCondition_of_mem_allConditions rest h.2 c hc

end

/-! ### Accepted programs -/

private theorem execute_safe (config : Config) {p : Program} (h : p.WellFormed) {m : Machine}
    (henv : m.env.NoBooleans) : (p.execute config m).Safe := by
  have hall := runAll_safe config p h m henv
  rw [Program.execute]
  split
  · rename_i m' hrun
    rw [hrun] at hall
    exact .output hall.env _
  · exact hall

/-- The errors that are not about kinds. -/
theorem EvalError.KindSafe.cases {why : EvalError} (h : why.KindSafe) :
    (∃ x, why = .undefinedVariable x) ∨ why = .divisionByZero ∨
      (∃ op a b, why = .overflow op a b) ∨ ∃ f, why = .output f := by
  cases why with
  | undefinedVariable x => exact Or.inl ⟨x, rfl⟩
  | divisionByZero => exact Or.inr (Or.inl rfl)
  | overflow op a b => exact Or.inr (Or.inr (Or.inl ⟨op, a, b, rfl⟩))
  | output f => exact Or.inr (Or.inr (Or.inr ⟨f, rfl⟩))
  | typeMismatch | notABoolean => cases h

/-- **An accepted program is type safe.**  From variables that hold no boolean its run fails
for no kind of value and passes no point where a variable holds one, and each of its
conditions has one value. -/
theorem Source.typeSafe_of_parse {s : Source} {p : Program} (h : s.parse = .ok p)
    (config : Config) {m : Machine} (henv : m.env.NoBooleans) :
    (∀ why, (p.execute config m).failure = some why →
      (∃ x, why = .undefinedVariable x) ∨ why = .divisionByZero ∨
        (∃ op a b, why = .overflow op a b) ∨ ∃ f, why = .output f) ∧
    (p.execute config m).machine.env.NoBooleans ∧
    (∀ m', Stmt.PassesAll config p m m' → m'.env.NoBooleans) ∧
    ∀ c ∈ Stmt.allConditions p, ∃ b, ∀ config env, c.eval config env = .ok (.bool b) := by
  have hform := Source.wellFormed_of_parse h
  have hsafe := execute_safe config hform henv
  refine ⟨fun why hwhy => (hsafe.failure why hwhy).cases, hsafe.env, ?_, ?_⟩
  · intro m' hpass
    exact noBooleans_of_passesAll config hpass hform henv
  · intro c hc
    exact exists_eval_condition (isCondition_of_mem_allConditions p hform c hc)

/-- A program that compares, branches and divides by zero. -/
theorem Source.typeSafe_division : ∃ p,
    (Source.ofString "x := 1; print x == 2; if (True != False) x := x / 0;").parse = .ok p ∧
    (p.execute .default ⟨.empty, .unlimited⟩).machine.env.NoBooleans ∧
    ∀ c ∈ Stmt.allConditions p, ∃ b, ∀ config env, c.eval config env = .ok (.bool b) := by
  obtain ⟨p, hp⟩ := Source.exists_of_isOk
    (s := Source.ofString "x := 1; print x == 2; if (True != False) x := x / 0;")
    (by decide +kernel)
  obtain ⟨-, henv, -, hconditions⟩ := typeSafe_of_parse hp .default
    (m := ⟨.empty, .unlimited⟩) Environment.noBooleans_empty
  exact ⟨p, hp, henv, hconditions⟩

end LoopFree
