/-
Programs one after another.

Executing a program is executing its statements in order, wherever braces stand.  A program
behind another goes on from what that one leaves, unless it failed (`execute_append`).  Braces
only group: there is one scope, so a run of statements may be put in a block or taken out of
one, at any depth, and so may lone semicolons (`Regrouped`).  And a failure takes nothing back
and lets nothing more happen: what is left behind is what the statements completed before it
make, and the statement that fails adds nothing (`execute_fails_iff`).
-/
import LoopFree.Proofs.Run.Steps

namespace LoopFree

/-! ### The same statements, grouped differently

A block opens no scope, and a lone semicolon does nothing.  So it should not matter how a list of
statements is cut into programs, or what is wrapped in a block, as long as the order is the same.
-/

/-- The two lists differ in the blocks that group their statements and in lone semicolons, at any
depth. -/
inductive Regrouped : List Stmt → List Stmt → Prop
  | refl (ss : List Stmt) : Regrouped ss ss
  | symm {ss ss' : List Stmt} (h : Regrouped ss ss') : Regrouped ss' ss
  | trans {ss ss' ss'' : List Stmt} (h : Regrouped ss ss') (h' : Regrouped ss' ss'') :
      Regrouped ss ss''
  | wrap (ss : List Stmt) : Regrouped ss [.block ss]
  | empty : Regrouped [.empty] []
  | append {ss ss' rest rest' : List Stmt} (h : Regrouped ss ss') (hrest : Regrouped rest rest') :
      Regrouped (ss ++ rest) (ss' ++ rest')
  | block {ss ss' : List Stmt} (h : Regrouped ss ss') : Regrouped [.block ss] [.block ss']
  | ifThen (c : Expr) {body body' : Stmt} (h : Regrouped [body] [body']) :
      Regrouped [.ifThen c body] [.ifThen c body']

/-- **How statements are grouped makes no difference to a run.** -/
theorem Regrouped.runAll (config : Config) {ss ss' : List Stmt} (h : Regrouped ss ss') :
    ∀ m, Stmt.runAll config ss m = Stmt.runAll config ss' m := by
  induction h with
  | refl ss =>
      intro m
      rfl
  | symm h ih =>
      intro m
      exact (ih m).symm
  | trans h h' ih ih' =>
      intro m
      exact (ih m).trans (ih' m)
  | wrap ss =>
      intro m
      rw [Stmt.runAll_singleton, Stmt.run]
  | empty =>
      intro m
      rfl
  | append h hrest ih ihrest =>
      intro m
      rw [Stmt.runAll_append, Stmt.runAll_append, ih]
      exact congrArg _ (funext ihrest)
  | block h ih =>
      intro m
      rw [Stmt.runAll_singleton, Stmt.runAll_singleton, Stmt.run, Stmt.run]
      exact ih m
  | ifThen c h ih =>
      intro m
      have hbody := ih m
      rw [Stmt.runAll_singleton, Stmt.runAll_singleton] at hbody ⊢
      rw [Stmt.run, Stmt.run, hbody]

namespace Program

section TakesAll

variable (config : Config) {m : Machine} (hm : m.sink.TakesAll)
include hm

/-- **A program behind another goes on from what that one leaves**, unless it failed. -/
theorem execute_append (p q : Program) :
    execute config (p ++ q) m = (p.execute config m).andThen (q.execute config) := by
  obtain ⟨completed, left, m', failure, h, -, hrun⟩ := Stmt.runAll_stops config p hm
  rw [execute_eq_runAll config _ hm, execute_eq_runAll config p hm, Stmt.runAll_append, hrun]
  cases failure with
  | none => exact (execute_eq_runAll config q (h.takesAll hm)).symm
  | some why => rfl

/-- **A program fails exactly when its run comes to a statement that fails by what it evaluates**,
and it leaves the machine that the statements completed before that one make by themselves. -/
theorem execute_fails_iff (p : Program) (m' : Machine) (why : EvalError) :
    p.execute config m = ⟨m', some why⟩ ↔
      ∃ completed s rest, Stmt.Steps config p m completed (s :: rest) m' ∧
        s.Faults config m'.env why ∧ execute config completed m = ⟨m', none⟩ ∧
        ∀ s ∈ completed, s.IsAction := by
  constructor
  · intro hfails
    obtain ⟨completed, left, m₁, failure, h, hstops, hrun⟩ := Stmt.runAll_stops config p hm
    rw [execute_eq_runAll config p hm, hrun] at hfails
    cases hfails
    cases hstops with
    | @faults s rest _ hs =>
        obtain ⟨halone, hactions⟩ := h.completed_alone
        exact ⟨completed, s, rest, h, hs, execute_of_runAll halone (h.takesAll hm).flushes,
          hactions⟩
  · rintro ⟨completed, s, rest, h, hs, -⟩
    refine execute_of_runAll ?_ (h.takesAll hm).flushes
    rw [h.runAll, (Stmt.Fails.fault hs).runAll]

/-- **Execution is sequential, in one scope, and statements are completed or have no effect.**  On a
sink whose writes and flushes succeed, programs behind one another are executed one after the
other up to the first failure; the grouping of statements makes no difference; and a program that
fails leaves exactly what the statements completed before the failing one make. -/
theorem execute_sequential :
    (∀ p q : Program,
      execute config (p ++ q) m = (p.execute config m).andThen (q.execute config)) ∧
    (∀ p q : Program, Regrouped p q → p.execute config m = q.execute config m) ∧
    ∀ (p : Program) (m' : Machine) (why : EvalError),
      p.execute config m = ⟨m', some why⟩ ↔
        ∃ completed s rest, Stmt.Steps config p m completed (s :: rest) m' ∧
          s.Faults config m'.env why ∧ execute config completed m = ⟨m', none⟩ ∧
          ∀ s ∈ completed, s.IsAction := by
  refine ⟨execute_append config hm, ?_, execute_fails_iff config hm⟩
  intro p q h
  rw [execute_eq_runAll config p hm, execute_eq_runAll config q hm, h.runAll config]

end TakesAll

/-- In the body of a conditional an unbound variable is assigned, behind one line and before two
more: the line before it is what the program leaves, with or without the braces around all. -/
theorem execute_sequential_unbound :
    let body : List Stmt := [.print (.int 1),
      .ifThen (.bool true) (.block [.assign "x" (.var "y"), .print (.int 2)]), .print (.int 3)]
    let start : Machine := ⟨.empty, .unlimited⟩
    let left := execute .default body start
    left.failure = some (.undefinedVariable "y") ∧ left.machine.sink.written = "1\n".toUTF8 ∧
      execute .default [.block body, .empty] start = left ∧
      ∃ completed s rest, Stmt.Steps .default body start completed (s :: rest) left.machine ∧
        s.Faults .default left.machine.env (.undefinedVariable "y") ∧
        execute .default completed start = ⟨left.machine, none⟩ ∧ ∀ s ∈ completed, s.IsAction := by
  intro body start left
  have hall := execute_sequential .default (m := start) ⟨rfl, rfl⟩
  have hfails : left.failure = some (.undefinedVariable "y") := by decide +kernel
  have hgroups : Regrouped [.block body, .empty] body :=
    .append (.symm (.wrap body)) .empty
  refine ⟨hfails, by decide +kernel, hall.2.1 _ _ hgroups, ?_⟩
  exact (hall.2.2 body left.machine _).mp (by rw [← hfails])

end Program

end LoopFree
