/-
The first release's reading of `-`, on trees.

In the mode of the first release everything about `-` is as if `+` stood there, the errors
included.  `plusForMinus` puts it there, at every depth of a tree, and leaves the rest of the
tree alone.  A tree without `-` has the same value in either mode, so the mode can be done
away with: what a program does in the old mode, the changed program does in any mode.
-/
import LoopFree.Run

namespace LoopFree

/-! ### Trees without `-`

The mode in which `-` adds is an option of evaluation.  A program that needs it could be written
with `+` instead, and here that program is computed.
-/

/-- `+` in place of `-`. -/
def ArithOp.plusForMinus : ArithOp → ArithOp
  | sub => add
  | op => op

/-- The expression with `+` in place of every `-`. -/
def Expr.plusForMinus : Expr → Expr
  | arith op l r => .arith op.plusForMinus l.plusForMinus r.plusForMinus
  | logic op l r => .logic op l.plusForMinus r.plusForMinus
  | compare op l r => .compare op l.plusForMinus r.plusForMinus
  | int n => .int n
  | float x => .float x
  | bool b => .bool b
  | var x => .var x

mutual

/-- The statement with `+` in place of every `-`. -/
def Stmt.plusForMinus : Stmt → Stmt
  | .block body => .block (Stmt.plusForMinusAll body)
  | .empty => .empty
  | .assign x e => .assign x e.plusForMinus
  | .print e => .print e.plusForMinus
  | .ifThen c body => .ifThen c.plusForMinus body.plusForMinus

/-- The statements with `+` in place of every `-`. -/
def Stmt.plusForMinusAll : List Stmt → List Stmt
  | [] => []
  | s :: rest => s.plusForMinus :: Stmt.plusForMinusAll rest

end

/-- The program with `+` in place of every `-`. -/
def Program.plusForMinus (p : Program) : Program :=
  Stmt.plusForMinusAll p

/-! ### Evaluation and runs -/

private theorem SubtractionMode.reading_plusForMinus (mode : SubtractionMode) (op : ArithOp) :
    mode.reading op.plusForMinus = legacySum.reading op := by
  cases op <;> rfl

/-- **An expression has in the old mode the value, or the error, that it has in any mode with `+`
in place of `-`.** -/
theorem Expr.eval_plusForMinus (config : Config) (env : Environment) (e : Expr) :
    e.plusForMinus.eval config env = e.eval ⟨.legacySum⟩ env := by
  induction e with
  | arith op l r ihl ihr =>
      rw [plusForMinus, eval, eval, ihl, ihr, SubtractionMode.reading_plusForMinus]
  | logic op l r ihl ihr | compare op l r ihl ihr => rw [plusForMinus, eval, eval, ihl, ihr]
  | int | float | bool | var => rfl

mutual

theorem Stmt.run_plusForMinus (config : Config) : ∀ (s : Stmt) (m : Machine),
    s.plusForMinus.run config m = s.run ⟨.legacySum⟩ m
  | .block body, m => by
      rw [Stmt.plusForMinus, Stmt.run, Stmt.run]
      exact Stmt.runAll_plusForMinus config body m
  | .empty, m => rfl
  | .assign x e, m => by
      rw [Stmt.plusForMinus, Stmt.run, Stmt.run, Expr.eval_plusForMinus]
  | .print e, m => by
      rw [Stmt.plusForMinus, Stmt.run, Stmt.run, Expr.eval_plusForMinus]
  | .ifThen c body, m => by
      rw [Stmt.plusForMinus, Stmt.run, Stmt.run, Expr.evalBool, Expr.evalBool,
        Expr.eval_plusForMinus, Stmt.run_plusForMinus config body m]

theorem Stmt.runAll_plusForMinus (config : Config) : ∀ (ss : List Stmt) (m : Machine),
    Stmt.runAll config (Stmt.plusForMinusAll ss) m = Stmt.runAll ⟨.legacySum⟩ ss m
  | [], m => rfl
  | s :: rest, m => by
      have hrest : Stmt.runAll config (Stmt.plusForMinusAll rest) = Stmt.runAll ⟨.legacySum⟩ rest :=
        funext (Stmt.runAll_plusForMinus config rest)
      rw [Stmt.plusForMinusAll, Stmt.runAll, Stmt.runAll, Stmt.run_plusForMinus config s m, hrest]

end

/-- **A program does in the old mode what it does in any mode with `+` in place of `-`.** -/
theorem Program.execute_plusForMinus (config : Config) (p : Program) (m : Machine) :
    p.plusForMinus.execute config m = p.execute ⟨.legacySum⟩ m := by
  rw [execute, execute, plusForMinus, Stmt.runAll_plusForMinus]

end LoopFree
