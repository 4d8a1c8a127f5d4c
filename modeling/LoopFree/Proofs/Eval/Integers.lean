/-
Integer arithmetic is exact or refused.

An expression of integer literals, of variables that hold integers and of the operators
other than division has an exact value, which is an integer of any size.  Evaluation gives
that value as an integer when 64 bits hold it and hold the exact value of every
subexpression too.  Else it fails at the first subexpression, operands before their
operator and left before right, whose exact value they do not hold; the error shows the
exact values of its operands.  So nothing wraps around, and a value that is too large on
the way is refused even if the end would fit.
-/
import LoopFree.Proofs.Eval.Checks

namespace LoopFree

/-! ### Exact values

The integers here are those of arithmetic, without bounds.  They are what a computation should
come to, and the question is where 64 bits get in its way.
-/

section Values

variable (config : Config) (env : Environment)

/-- Integer literals and variables that hold integers, joined by operators other than
division. -/
def Expr.IsWhole : Expr → Prop
  | arith op l r => op ≠ .div ∧ l.IsWhole ∧ r.IsWhole
  | int _ => True
  | var x => ∃ n, env.get? x = some (.int n)
  | _ => False

/-- The exact value of an expression that is whole; of any other it is of no account. -/
def Expr.exact : Expr → Int
  | arith op l r =>
      match config.subtraction.reading op with
      | .add => l.exact + r.exact
      | .sub => l.exact - r.exact
      | .mul => l.exact * r.exact
      | .div => 0
  | int n => n.toInt
  | var x =>
      match env.get? x with
      | some (.int n) => n.toInt
      | _ => 0
  | _ => 0

variable {config env}

/-- The exact value is what the operator makes of the exact values of its operands. -/
theorem Expr.exact_arith {op : ArithOp} {l r : Expr} (h : op ≠ .div) :
    (config.subtraction.reading op).exact (l.exact config env) (r.exact config env)
      = some ((arith op l r).exact config env) := by
  rw [exact]
  cases op with
  | div => exact (h rfl).elim
  | add | mul => rfl
  | sub => cases config.subtraction <;> rfl

/-! ### One operation -/

private theorem fitsInt64_toInt (n : Int64) : fitsInt64 n.toInt :=
  ⟨n.minValue_le_toInt, n.toInt_le⟩

private theorem toInt_ofInt_of_fits {n : Int} (h : fitsInt64 n) : (Int64.ofInt n).toInt = n := by
  obtain ⟨hlo, hhi⟩ := h
  rw [Int64.toInt_minValue] at hlo
  rw [Int64.toInt_maxValue] at hhi
  exact Int64.toInt_ofInt_of_le hlo (by omega)

/-- **An operator on integers gives the exact result or refuses it.** -/
theorem onInts_of_exact {op : ArithOp} {a b : Int64} {z : Int}
    (h : op.exact a.toInt b.toInt = some z) :
    op.onInts a b = if fitsInt64 z then .ok (.int (.ofInt z)) else .error (.overflow op a b) := by
  rw [ArithOp.onInts, h]

/-! ### Expressions

A value that does not fit is refused where it arises, also if the next operation would have
brought it back.  So it is not enough to speak of the value of the whole expression.
-/

/-- All exact values fit and evaluation gives the last one. -/
def Expr.IsExact (config : Config) (env : Environment) (e : Expr) : Prop :=
  (∀ s ∈ e.nodes, fitsInt64 (s.exact config env)) ∧
    ∃ n : Int64, e.eval config env = .ok (.int n) ∧ n.toInt = e.exact config env

/-- Evaluation refuses the first exact value that does not fit. -/
def Expr.IsRefused (config : Config) (env : Environment) (e : Expr) : Prop :=
  ∃ (op : ArithOp) (l r : Expr) (a b : Int64),
    e.nodes.find? (fun s => ¬fitsInt64 (s.exact config env)) = some (arith op l r) ∧
    a.toInt = l.exact config env ∧ b.toInt = r.exact config env ∧
    e.eval config env = .error (.overflow (config.subtraction.reading op) a b)

private theorem find?_eq_none_of_fits {es : List Expr}
    (h : ∀ s ∈ es, fitsInt64 (s.exact config env)) :
    es.find? (fun s => ¬fitsInt64 (s.exact config env)) = none := by
  simpa using h

section Operators

variable {op : ArithOp} {l r : Expr}

/-- What the left operand refuses, the operator refuses. -/
theorem Expr.IsRefused.left (h : l.IsRefused config env) : (arith op l r).IsRefused config env := by
  obtain ⟨op', l', r', a, b, hfirst, ha, hb, heval⟩ := h
  refine ⟨op', l', r', a, b, ?_, ha, hb, ?_⟩
  · rw [nodes, List.append_assoc, List.find?_append, hfirst, Option.some_or]
  · rw [eval, heval]
    rfl

/-- What the right operand refuses, the operator refuses, once the left one is exact. -/
theorem Expr.IsRefused.right (hl : l.IsExact config env) (h : r.IsRefused config env) :
    (arith op l r).IsRefused config env := by
  obtain ⟨hfits, n, hn, -⟩ := hl
  obtain ⟨op', l', r', a, b, hfirst, ha, hb, heval⟩ := h
  refine ⟨op', l', r', a, b, ?_, ha, hb, ?_⟩
  · rw [nodes, List.append_assoc, List.find?_append, find?_eq_none_of_fits hfits,
      List.find?_append, hfirst, Option.none_or, Option.some_or]
  · rw [eval, hn, heval]
    rfl

/-- With exact operands the operator is exact, or it is what is refused. -/
theorem Expr.IsExact.operator (hop : op ≠ .div) (hl : l.IsExact config env)
    (hr : r.IsExact config env) :
    (arith op l r).IsExact config env ∨ (arith op l r).IsRefused config env := by
  obtain ⟨hfitsl, a, ha, haz⟩ := hl
  obtain ⟨hfitsr, b, hb, hbz⟩ := hr
  have hexact : (config.subtraction.reading op).exact a.toInt b.toInt
      = some ((arith op l r).exact config env) := by
    rw [haz, hbz]
    exact exact_arith hop
  have heval : (arith op l r).eval config env
      = (config.subtraction.reading op).onInts a b := by
    rw [eval, ha, hb]
    rfl
  rw [onInts_of_exact hexact] at heval
  have hoperands := List.forall_mem_append.mpr ⟨hfitsl, hfitsr⟩
  by_cases hfits : fitsInt64 ((arith op l r).exact config env)
  · rw [if_pos hfits] at heval
    refine Or.inl ⟨?_, _, heval, toInt_ofInt_of_fits hfits⟩
    exact List.forall_mem_append.mpr ⟨hoperands, List.forall_mem_singleton.mpr hfits⟩
  · rw [if_neg hfits] at heval
    refine Or.inr ⟨op, l, r, a, b, ?_, haz, hbz, heval⟩
    rw [nodes, List.find?_append, find?_eq_none_of_fits hoperands, Option.none_or]
    simp [hfits]

end Operators

/-- **A whole expression is exact or refused.** -/
theorem exact_or_refused {e : Expr} (h : e.IsWhole env) :
    e.IsExact config env ∨ e.IsRefused config env := by
  induction e with
  | arith op l r ihl ihr =>
      obtain ⟨hop, hl, hr⟩ := h
      rcases ihl hl with hexactl | hrefused
      · rcases ihr hr with hexactr | hrefused
        · exact hexactl.operator hop hexactr
        · exact Or.inr (hrefused.right hexactl)
      · exact Or.inr hrefused.left
  | int n =>
      refine Or.inl ⟨?_, n, rfl, rfl⟩
      exact List.forall_mem_singleton.mpr (fitsInt64_toInt n)
  | var x =>
      obtain ⟨n, hn⟩ := h
      have hexact : (Expr.var x).exact config env = n.toInt := by rw [Expr.exact, hn]
      have heval : (Expr.var x).eval config env = .ok (.int n) := by rw [Expr.eval, hn]
      refine Or.inl ⟨List.forall_mem_singleton.mpr ?_, n, heval, hexact.symm⟩
      rw [hexact]
      exact fitsInt64_toInt n
  | logic | compare | float | bool => cases h

variable (config env) in
/-- **Integer arithmetic is exact or refused.**  If the exact value of every subexpression
fits into 64 bits, the value is the exact one; else the first subexpression whose exact
value does not fit is refused, and the error has its operator and its exact operands. -/
theorem eval_whole {e : Expr} (h : e.IsWhole env) :
    ((∀ s ∈ e.nodes, fitsInt64 (s.exact config env)) →
      ∃ n : Int64, e.eval config env = .ok (.int n) ∧ n.toInt = e.exact config env) ∧
    ((∃ s ∈ e.nodes, ¬fitsInt64 (s.exact config env)) →
      ∃ (op : ArithOp) (l r : Expr) (a b : Int64),
        e.nodes.find? (fun s => ¬fitsInt64 (s.exact config env)) = some (.arith op l r) ∧
        a.toInt = l.exact config env ∧ b.toInt = r.exact config env ∧
        e.eval config env = .error (.overflow (config.subtraction.reading op) a b)) := by
  rcases exact_or_refused h with hexact | hrefused
  · refine ⟨fun _ => hexact.2, fun hover => ?_⟩
    obtain ⟨s, hs, hover⟩ := hover
    exact (hover (hexact.1 s hs)).elim
  · refine ⟨fun hfits => ?_, fun _ => hrefused⟩
    obtain ⟨op, l, r, a, b, hfirst, -⟩ := hrefused
    have hover := List.find?_some hfirst
    have hfit := hfits _ (List.mem_of_find?_eq_some hfirst)
    exact (of_decide_eq_true hover hfit).elim

end Values

/-- From the least integer, one down and one up again ends where it began, and is refused
half way; with `-` read as `+` it is two up. -/
theorem eval_whole_downAndUp :
    let env := Environment.empty.set "x" (.int Int64.minValue)
    let e : Expr := .arith .add (.arith .sub (.var "x") (.int 1)) (.int 1)
    e.IsWhole env ∧
    fitsInt64 (e.exact ⟨.difference⟩ env) ∧
    e.eval ⟨.difference⟩ env = .error (.overflow .sub Int64.minValue 1) ∧
    e.eval ⟨.legacySum⟩ env = .ok (.int (Int64.minValue + 2)) := by
  intro env e
  have hwhole : e.IsWhole env := ⟨by decide, ⟨by decide, ⟨_, rfl⟩, trivial⟩, trivial⟩
  refine ⟨hwhole, by decide, ?_, ?_⟩
  · obtain ⟨op, l, r, a, b, hfirst, ha, hb, heval⟩ :=
      (eval_whole ⟨.difference⟩ env hwhole).2
        ⟨.arith .sub (.var "x") (.int 1), by decide, by decide⟩
    have hfound : e.nodes.find? (fun s => ¬fitsInt64 (s.exact ⟨.difference⟩ env))
        = some (.arith .sub (.var "x") (.int 1)) := by decide
    cases hfirst.symm.trans hfound
    obtain rfl : a = Int64.minValue := Int64.toInt_inj.mp ha
    obtain rfl : b = 1 := Int64.toInt_inj.mp hb
    exact heval
  · obtain ⟨n, heval, hn⟩ := (eval_whole ⟨.legacySum⟩ env hwhole).1 (by decide)
    have hexact : e.exact ⟨.legacySum⟩ env = (Int64.minValue + 2).toInt := by decide
    rw [heval, Int64.toInt_inj.mp (hn.trans hexact)]

end LoopFree
