/-
Which variables matter to a run, and which it touches.

An expression has the value that the variables it names give it (`Expr.eval_congr`), so two
machines that agree on what an agenda reads take the same steps.  Their environments need not
become equal.  What is known of each variable, `Machine.Alongside`, is that both runs hold one
value in it or that neither has touched it; since the runs started with agreement on what is read,
that is agreement on it still.

The variables that no assignment of the agenda names are those of the start, at every point of the
run (`Steps.env_of_not_mem_targets`).
-/
import LoopFree.Proofs.Run.Steps

namespace LoopFree

/-! ### The variables that programs name

They are collected from the tree, so they include those of a conditional whose body is never run.
What is shown of them holds for every run, whatever it comes to.
-/

/-- The variables that an expression reads. -/
def Expr.reads : Expr → List String
  | arith _ l r | logic _ l r | compare _ l r => l.reads ++ r.reads
  | var x => [x]
  | int _ | float _ | bool _ => []

mutual

/-- The variables that the expressions of a statement read, at any depth. -/
def Stmt.reads : Stmt → List String
  | .block body => Stmt.allReads body
  | .empty => []
  | .assign _ e | .print e => e.reads
  | .ifThen c body => c.reads ++ body.reads

/-- The variables that the expressions of some statements read. -/
def Stmt.allReads : List Stmt → List String
  | [] => []
  | s :: rest => s.reads ++ Stmt.allReads rest

end

mutual

/-- The variables that the assignments of a statement are to, at any depth. -/
def Stmt.targets : Stmt → List String
  | .block body => Stmt.allTargets body
  | .assign x _ => [x]
  | .empty | .print _ => []
  | .ifThen _ body => body.targets

/-- The variables that the assignments of some statements are to. -/
def Stmt.allTargets : List Stmt → List String
  | [] => []
  | s :: rest => s.targets ++ Stmt.allTargets rest

end

/-- The variables that the expressions of a program read. -/
def Program.reads (p : Program) : List String :=
  Stmt.allReads p

/-- The variables that the assignments of a program are to. -/
def Program.targets (p : Program) : List String :=
  Stmt.allTargets p

namespace Stmt

private theorem allReads_append (ss rest : List Stmt) :
    allReads (ss ++ rest) = allReads ss ++ allReads rest := by
  induction ss with
  | nil => rfl
  | cons s ss ih => rw [List.cons_append, allReads, allReads, ih, List.append_assoc]

private theorem allReads_ifThen (c : Expr) (body : Stmt) (rest : List Stmt) :
    allReads (.ifThen c body :: rest) = c.reads ++ allReads (body :: rest) := by
  rw [allReads, reads, List.append_assoc, allReads]

private theorem allTargets_append (ss rest : List Stmt) :
    allTargets (ss ++ rest) = allTargets ss ++ allTargets rest := by
  induction ss with
  | nil => rfl
  | cons s ss ih => rw [List.cons_append, allTargets, allTargets, ih, List.append_assoc]

end Stmt

/-! ### Agreement

Two runs may start from environments that differ where the program does not read.  Assignments
make them agree on more and more.  `Machine.Alongside` keeps account of every variable: by now it
holds one value in both, or it is in each as it was at the start.
-/

/-- Two environments agree on these variables: each is bound to one value in both, or in neither. -/
def Environment.AgreeOn (xs : List String) (env env' : Environment) : Prop :=
  ∀ x ∈ xs, env.get? x = env'.get? x

theorem Environment.AgreeOn.mono {xs ys : List String} {env env' : Environment}
    (h : AgreeOn xs env env') (hsub : ys ⊆ xs) : AgreeOn ys env env' :=
  fun x hx => h x (hsub hx)

/-- **The value of an expression is that of the variables it reads.** -/
theorem Expr.eval_congr (config : Config) {env env' : Environment} {e : Expr}
    (h : env.AgreeOn e.reads env') : e.eval config env = e.eval config env' := by
  induction e with
  | arith op l r ihl ihr | logic op l r ihl ihr | compare op l r ihl ihr =>
      have hl := ihl (h.mono (List.subset_append_left l.reads r.reads))
      have hr := ihr (h.mono (List.subset_append_right l.reads r.reads))
      rw [eval, eval, hl, hr]
  | var x => rw [eval, eval, h x (List.mem_singleton_self x)]
  | int | float | bool => rfl

/-- The machines of two runs that started with `env` and with `env'`: the output is the same, and
every variable holds one value in both or is as it was in both. -/
structure Machine.Alongside (env env' : Environment) (m m' : Machine) : Prop where
  sink : m'.sink = m.sink
  bindings : ∀ x, (∃ v, m.env.get? x = some v ∧ m'.env.get? x = some v) ∨
    (m.env.get? x = env.get? x ∧ m'.env.get? x = env'.get? x)

namespace Machine.Alongside

variable {env env' : Environment} {m m' : Machine}

private theorem start (env env' : Environment) (sink : Sink) :
    Alongside env env' ⟨env, sink⟩ ⟨env', sink⟩ :=
  ⟨rfl, fun _ => Or.inr ⟨rfl, rfl⟩⟩

/-- Both runs bind a variable to a value. -/
theorem set (h : Alongside env env' m m') (x : String) (v : Value) :
    Alongside env env' { m with env := m.env.set x v } { m' with env := m'.env.set x v } := by
  refine ⟨h.sink, fun y => ?_⟩
  simp only [Environment.get?_set]
  by_cases hy : y = x
  · rw [if_pos hy, if_pos hy]
    exact Or.inl ⟨v, rfl, rfl⟩
  · rw [if_neg hy, if_neg hy]
    exact h.bindings y

/-- Both runs write the same. -/
theorem withSink (h : Alongside env env' m m') (sink : Sink) :
    Alongside env env' { m with sink := sink } { m' with sink := sink } :=
  ⟨rfl, h.bindings⟩

section Reads

variable {xs : List String} (h : Alongside env env' m m') (hxs : env.AgreeOn xs env')
include h hxs

/-- What the runs agreed on they agree on still. -/
theorem agreeOn : m.env.AgreeOn xs m'.env := by
  intro x hx
  rcases h.bindings x with ⟨v, hv, hv'⟩ | ⟨hstart, hstart'⟩
  · rw [hv, hv']
  · rw [hstart, hstart', hxs x hx]

/-- So an expression that reads nothing else has one value in both. -/
theorem eval (config : Config) {e : Expr} (he : e.reads ⊆ xs) :
    e.eval config m'.env = e.eval config m.env :=
  (Expr.eval_congr config ((h.agreeOn hxs).mono he)).symm

private theorem evalBool (config : Config) {e : Expr} (he : e.reads ⊆ xs) :
    e.evalBool config m'.env = e.evalBool config m.env := by
  rw [Expr.evalBool, Expr.evalBool, h.eval hxs config he]

end Reads

end Machine.Alongside

/-! ### Runs -/

namespace Stmt

section Steps

variable {config : Config} {agenda completed left : List Stmt} {m m₁ : Machine}

/-- What is still to be run reads nothing new. -/
theorem Steps.reads_subset (h : Steps config agenda m completed left m₁) :
    allReads left ⊆ allReads agenda := by
  induction h with
  | stay => exact List.Subset.refl _
  | assign _ _ ih | print _ _ _ ih | empty _ ih | passed _ _ ih =>
      exact List.Subset.trans ih (List.subset_append_right _ _)
  | block _ ih =>
      rw [allReads_append] at ih
      exact ih
  | taken _ _ ih =>
      rw [allReads_ifThen]
      exact List.Subset.trans ih (List.subset_append_right _ _)

/-- **Runs that agree on what is read take the same steps**, and stay alongside each other. -/
theorem Steps.alongside {env env' : Environment} (h : Steps config agenda m completed left m₁)
    (hreads : env.AgreeOn (allReads agenda) env') :
    ∀ {m' : Machine}, Machine.Alongside env env' m m' →
      ∃ m₁', Steps config agenda m' completed left m₁' ∧ Machine.Alongside env env' m₁ m₁' := by
  induction h with
  | stay agenda m =>
      intro m' hm
      exact ⟨m', .stay agenda m', hm⟩
  | @assign x e v rest _ _ m _ he h ih =>
      intro m' hm
      rw [← hm.eval hreads config (List.subset_append_left _ _)] at he
      have hrest := hreads.mono (List.subset_append_right e.reads (allReads rest))
      obtain ⟨m₁', hsteps, hm₁⟩ := ih hrest (hm.set x v)
      exact ⟨m₁', .assign he hsteps, hm₁⟩
  | @print e v sink rest _ _ m _ he hw h ih =>
      intro m' hm
      rw [← hm.eval hreads config (List.subset_append_left _ _)] at he
      rw [← hm.sink] at hw
      have hrest := hreads.mono (List.subset_append_right e.reads (allReads rest))
      obtain ⟨m₁', hsteps, hm₁⟩ := ih hrest (hm.withSink sink)
      exact ⟨m₁', .print he hw hsteps, hm₁⟩
  | empty h ih =>
      intro m' hm
      obtain ⟨m₁', hsteps, hm₁⟩ := ih hreads hm
      exact ⟨m₁', .empty hsteps, hm₁⟩
  | block h ih =>
      intro m' hm
      rw [allReads_append] at ih
      obtain ⟨m₁', hsteps, hm₁⟩ := ih hreads hm
      exact ⟨m₁', .block hsteps, hm₁⟩
  | taken hc h ih =>
      intro m' hm
      rw [allReads_ifThen] at hreads
      rw [← hm.evalBool hreads config (List.subset_append_left _ _)] at hc
      obtain ⟨m₁', hsteps, hm₁⟩ := ih (hreads.mono (List.subset_append_right _ _)) hm
      exact ⟨m₁', .taken hc hsteps, hm₁⟩
  | passed hc h ih =>
      intro m' hm
      have hrest := hreads.mono (List.subset_append_right _ _)
      rw [allReads_ifThen] at hreads
      rw [← hm.evalBool hreads config (List.subset_append_left _ _)] at hc
      obtain ⟨m₁', hsteps, hm₁⟩ := ih hrest hm
      exact ⟨m₁', .passed hc hsteps, hm₁⟩

/-- **A run changes no variable but those that its assignments are to.** -/
theorem Steps.env_of_not_mem_targets (h : Steps config agenda m completed left m₁) {x : String}
    (hx : x ∉ allTargets agenda) : m₁.env.get? x = m.env.get? x := by
  induction h with
  | stay => rfl
  | assign he h ih =>
      obtain ⟨hne, hrest⟩ := not_or.mp (mt List.mem_append.mpr hx)
      rw [ih hrest, Environment.get?_set, if_neg (fun heq => hne (List.mem_singleton.mpr heq))]
  | print he hw h ih => exact ih hx
  | empty h ih => exact ih hx
  | block h ih =>
      rw [allTargets_append] at ih
      exact ih hx
  | taken hc h ih => exact ih hx
  | passed hc h ih => exact ih (fun hmem => hx (List.mem_append_right _ hmem))

private theorem Fails.env_eq {s : Stmt} {why : EvalError} (h : s.Fails config m why m₁) :
    m₁.env = m.env := by
  cases h <;> rfl

/-- A statement that fails in one of two runs alongside fails in the other too. -/
theorem Fails.alongside {s : Stmt} {why : EvalError} {env env' : Environment} {m' : Machine}
    (h : s.Fails config m why m₁) (hreads : env.AgreeOn s.reads env')
    (hm : Machine.Alongside env env' m m') :
    ∃ m₁', s.Fails config m' why m₁' ∧ Machine.Alongside env env' m₁ m₁' := by
  cases h with
  | write he hw =>
      rw [← hm.eval hreads config (List.Subset.refl _)] at he
      rw [← hm.sink] at hw
      exact ⟨_, .write he hw, hm.withSink _⟩
  | fault h =>
      refine ⟨m', .fault ?_, hm⟩
      cases s with
      | assign x e | print e => exact (hm.eval hreads config (List.Subset.refl _)).trans h
      | ifThen c body => exact (hm.evalBool hreads config (List.subset_append_left _ _)).trans h
      | block | empty => cases h

end Steps

/-- Runs of the same statements alongside each other come to the same end. -/
theorem runAll_alongside (config : Config) (ss : List Stmt) {env env' : Environment}
    {m m' : Machine} (hreads : env.AgreeOn (allReads ss) env')
    (hm : Machine.Alongside env env' m m') :
    Machine.Alongside env env' (runAll config ss m).machine (runAll config ss m').machine ∧
      (runAll config ss m').failure = (runAll config ss m).failure := by
  rcases runAll_reaches config ss m with
    ⟨completed, m₁, h, hrun⟩ | ⟨completed, s, rest, m₁, why, m₂, h, hs, hrun⟩
  · obtain ⟨m₁', h', hm₁⟩ := h.alongside hreads hm
    have hrun' : runAll config ss m' = ⟨m₁', none⟩ := h'.runAll
    rw [hrun, hrun']
    exact ⟨hm₁, rfl⟩
  · obtain ⟨m₁', h', hm₁⟩ := h.alongside hreads hm
    have hnow := (hreads.mono h.reads_subset).mono (List.subset_append_left s.reads (allReads rest))
    obtain ⟨m₂', hs', hm₂⟩ := hs.alongside hnow hm₁
    have hrun' : runAll config ss m' = ⟨m₂', some why⟩ := h'.runAll.trans (hs'.runAll rest)
    rw [hrun, hrun']
    exact ⟨hm₂, rfl⟩

private theorem runAll_env_of_not_mem_targets (config : Config) (ss : List Stmt) (m : Machine)
    {x : String} (hx : x ∉ allTargets ss) :
    (runAll config ss m).machine.env.get? x = m.env.get? x := by
  rcases runAll_reaches config ss m with
    ⟨completed, m₁, h, hrun⟩ | ⟨completed, s, rest, m₁, why, m₂, h, hs, hrun⟩
  · rw [hrun]
    exact h.env_of_not_mem_targets hx
  · rw [hrun]
    show m₂.env.get? x = m.env.get? x
    rw [hs.env_eq]
    exact h.env_of_not_mem_targets hx

end Stmt

namespace Program

/-- The flush at the end changes nothing of the machine. -/
theorem execute_machine (config : Config) (p : Program) (m : Machine) :
    (p.execute config m).machine = (Stmt.runAll config p m).machine := by
  unfold execute
  split
  · rename_i hrun
    rw [hrun]
  · rfl

/-- Runs that leave the same output and failed alike are flushed alike. -/
theorem execute_failure_congr {config : Config} {p : Program} {m m' : Machine}
    (hsink : (Stmt.runAll config p m').machine.sink = (Stmt.runAll config p m).machine.sink)
    (hfailure : (Stmt.runAll config p m').failure = (Stmt.runAll config p m).failure) :
    (p.execute config m').failure = (p.execute config m).failure := by
  unfold execute
  generalize Stmt.runAll config p m = o at hsink hfailure ⊢
  generalize Stmt.runAll config p m' = o' at hsink hfailure ⊢
  obtain ⟨m₁, failure⟩ := o
  obtain ⟨m₁', failure'⟩ := o'
  obtain rfl : failure' = failure := hfailure
  cases failure' with
  | none =>
      show m₁'.sink.flush.map _ = m₁.sink.flush.map _
      rw [show m₁'.sink = m₁.sink from hsink]
  | some why => rfl

/-- **A program depends on the variables it reads alone, and touches those alone that it assigns.**
From environments that agree on what is read, on one sink, it writes the same and ends in the same
way.  A variable that an assignment is to has been bound to one value in both runs, or has been
left as it was in both; and every other variable is as it was. -/
theorem execute_reads_targets (config : Config) (p : Program) {env env' : Environment}
    (hreads : ∀ x ∈ p.reads, env.get? x = env'.get? x) (sink : Sink) :
    let left := p.execute config ⟨env, sink⟩
    let left' := p.execute config ⟨env', sink⟩
    left'.machine.sink = left.machine.sink ∧ left'.failure = left.failure ∧
    (∀ x ∈ p.targets,
      (∃ v, left.machine.env.get? x = some v ∧ left'.machine.env.get? x = some v) ∨
      (left.machine.env.get? x = env.get? x ∧ left'.machine.env.get? x = env'.get? x)) ∧
    ∀ x, x ∉ p.targets →
      left.machine.env.get? x = env.get? x ∧ left'.machine.env.get? x = env'.get? x := by
  obtain ⟨hm, hfailure⟩ := Stmt.runAll_alongside config p hreads (.start env env' sink)
  intro left left'
  have hleft : left.machine = _ := execute_machine config p ⟨env, sink⟩
  have hleft' : left'.machine = _ := execute_machine config p ⟨env', sink⟩
  rw [hleft, hleft']
  refine ⟨hm.sink, execute_failure_congr hm.sink hfailure, fun x _ => hm.bindings x, ?_⟩
  intro x hx
  exact ⟨Stmt.runAll_env_of_not_mem_targets config p _ hx,
    Stmt.runAll_env_of_not_mem_targets config p _ hx⟩

/-- A division by zero stops both runs in a block, between two assignments: `x` has got the value
of `y` in both, and `z`, bound at the start of one run only, is as it was. -/
theorem execute_reads_targets_divided :
    let p : Program := [.assign "x" (.var "y"), .ifThen (.bool true)
      (.block [.print (.var "y"), .assign "z" (.arith .div (.var "y") (.int 0))])]
    let env : Environment := ⟨[("y", .int 1), ("z", .int 7)]⟩
    let env' : Environment := ⟨[("w", .bool true), ("x", .float 2.5), ("y", .int 1)]⟩
    let left := p.execute .default ⟨env, .unlimited⟩
    let left' := p.execute .default ⟨env', .unlimited⟩
    (∀ x ∈ p.reads, env.get? x = env'.get? x) ∧ left.failure = some .divisionByZero ∧
      left'.machine.sink = left.machine.sink ∧ left'.failure = left.failure ∧
      (∃ v, left.machine.env.get? "x" = some v ∧ left'.machine.env.get? "x" = some v) ∧
      left.machine.env.get? "z" = some (.int 7) ∧ left'.machine.env.get? "z" = none ∧
      left'.machine.env.get? "w" = some (.bool true) := by
  intro p env env' left left'
  have hreads : ∀ x ∈ p.reads, env.get? x = env'.get? x := by decide
  obtain ⟨hsink, hfailure, hassigned, hother⟩ :=
    execute_reads_targets .default p hreads .unlimited
  have hx : left.machine.env.get? "x" = some (.int 1) := by decide +kernel
  have hz : left.machine.env.get? "z" = some (.int 7) := by decide +kernel
  have hz' : left'.machine.env.get? "z" = none := by decide +kernel
  refine ⟨hreads, by decide +kernel, hsink, hfailure, ?_, hz, hz', (hother "w" (by decide)).2⟩
  rcases hassigned "x" (by decide) with hbound | ⟨hstart, -⟩
  · exact hbound
  · rw [hx] at hstart
    exact absurd hstart (by decide)

end Program

end LoopFree
