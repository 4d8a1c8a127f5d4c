/-
Runs step by step.

A run is followed by its agenda, the statements that are still to be run.  A step takes the
statement at the head of the agenda.  A block gives way to what stands in it, a conditional to
its body or to nothing, and an assignment or a `print` is completed.  The agenda does not
remember where a statement came from, and so it shows the order in which a run goes through
statements however deep they are nested.

`Stmt.Steps` relates an agenda and a machine to an agenda and a machine later in the run, and
to the statements completed in between.  A run that succeeds is one that steps to the empty
agenda, and a run that fails steps to a statement that fails by itself (`runAll_reaches`).
What a run has done by any of its points is what the completed statements do when they are run
one after another, with nothing around them (`Steps.completed_alone`).
-/
import LoopFree.Run

namespace LoopFree

/-- Goes on from the machine that a run leaves, unless the run failed. -/
def Outcome.andThen (o : Outcome) (next : Machine → Outcome) : Outcome :=
  match o with
  | ⟨m, none⟩ => next m
  | failed => failed

private theorem Outcome.andThen_assoc (o : Outcome) (f g : Machine → Outcome) :
    (o.andThen f).andThen g = o.andThen fun m => (f m).andThen g := by
  obtain ⟨m, failure⟩ := o
  cases failure <;> rfl

namespace Stmt

variable (config : Config)

/-! ### Statements one after another -/

private theorem runAll_cons (s : Stmt) (rest : List Stmt) (m : Machine) :
    runAll config (s :: rest) m = (s.run config m).andThen (runAll config rest) := by
  rw [runAll]
  rfl

theorem runAll_append (ss : List Stmt) : ∀ (ss' : List Stmt) (m : Machine),
    runAll config (ss ++ ss') m = (runAll config ss m).andThen (runAll config ss') := by
  induction ss with
  | nil =>
      intro ss' m
      rfl
  | cons s rest ih =>
      intro ss' m
      rw [List.cons_append, runAll_cons, runAll_cons, Outcome.andThen_assoc]
      exact congrArg _ (funext (ih ss'))

theorem runAll_singleton (s : Stmt) (m : Machine) : runAll config [s] m = s.run config m := by
  rw [runAll_cons]
  obtain ⟨m', failure⟩ := s.run config m
  cases failure <;> rfl

/-! ### Steps

A step records the statement that it completes.  What is recorded are assignments and prints only,
without the blocks and conditionals they came from, and this is what remains to be said of a run
that failed: these were done, in this order, and nothing of the others.
-/

/-- The run of an agenda from a machine completes these statements and then has the second
agenda before it, and the second machine. -/
inductive Steps : List Stmt → Machine → List Stmt → List Stmt → Machine → Prop
  | stay (agenda : List Stmt) (m : Machine) : Steps agenda m [] agenda m
  | assign {x : String} {e : Expr} {v : Value} {rest completed left : List Stmt} {m m' : Machine}
      (he : e.eval config m.env = .ok v)
      (h : Steps rest { m with env := m.env.set x v } completed left m') :
      Steps (.assign x e :: rest) m (.assign x e :: completed) left m'
  | print {e : Expr} {v : Value} {sink : Sink} {rest completed left : List Stmt} {m m' : Machine}
      (he : e.eval config m.env = .ok v) (hw : m.sink.write (v.text ++ "\n") = (sink, none))
      (h : Steps rest { m with sink := sink } completed left m') :
      Steps (.print e :: rest) m (.print e :: completed) left m'
  | empty {rest completed left : List Stmt} {m m' : Machine} (h : Steps rest m completed left m') :
      Steps (.empty :: rest) m completed left m'
  | block {body rest completed left : List Stmt} {m m' : Machine}
      (h : Steps (body ++ rest) m completed left m') :
      Steps (.block body :: rest) m completed left m'
  | taken {c : Expr} {body : Stmt} {rest completed left : List Stmt} {m m' : Machine}
      (hc : c.evalBool config m.env = .ok true) (h : Steps (body :: rest) m completed left m') :
      Steps (.ifThen c body :: rest) m completed left m'
  | passed {c : Expr} {body : Stmt} {rest completed left : List Stmt} {m m' : Machine}
      (hc : c.evalBool config m.env = .ok false) (h : Steps rest m completed left m') :
      Steps (.ifThen c body :: rest) m completed left m'

/-- What the statement has to evaluate first fails. -/
def Faults (env : Environment) (why : EvalError) : Stmt → Prop
  | .assign _ e => e.eval config env = .error why
  | .print e => e.eval config env = .error why
  | .ifThen c _ => c.evalBool config env = .error why
  | _ => False

/-- The statement fails by itself: what it has to evaluate fails, or what it has to write is not
taken.  The machine it leaves comes last. -/
inductive Fails : Stmt → Machine → EvalError → Machine → Prop
  | fault {s : Stmt} {m : Machine} {why : EvalError} (h : s.Faults config m.env why) :
      Fails s m why m
  | write {e : Expr} {v : Value} {sink : Sink} {why : SinkFailure} {m : Machine}
      (he : e.eval config m.env = .ok v)
      (hw : m.sink.write (v.text ++ "\n") = (sink, some why)) :
      Fails (.print e) m (.output why) { m with sink := sink }

/-- A statement that binds a variable or writes a line. -/
def IsAction : Stmt → Prop
  | .assign _ _ | .print _ => True
  | _ => False

variable {config}

private theorem Faults.run {s : Stmt} {m : Machine} {why : EvalError}
    (h : s.Faults config m.env why) : s.run config m = ⟨m, some why⟩ := by
  cases s with
  | assign x e =>
      have he : e.eval config m.env = .error why := h
      rw [Stmt.run, he]
  | print e =>
      have he : e.eval config m.env = .error why := h
      rw [Stmt.run, he]
  | ifThen c body =>
      have hc : c.evalBool config m.env = .error why := h
      rw [Stmt.run, hc]
  | block | empty => cases h

private theorem Fails.run {s : Stmt} {m m' : Machine} {why : EvalError}
    (h : s.Fails config m why m') : s.run config m = ⟨m', some why⟩ := by
  cases h with
  | fault h => exact h.run
  | write he hw =>
      rw [Stmt.run, he]
      simp only [hw]
      rfl

theorem Fails.runAll {s : Stmt} {m m' : Machine} {why : EvalError} (h : s.Fails config m why m')
    (rest : List Stmt) : Stmt.runAll config (s :: rest) m = ⟨m', some why⟩ := by
  rw [runAll_cons, h.run]
  rfl

namespace Steps

variable {agenda agenda' completed completed' left : List Stmt} {m m' m'' : Machine}

theorem trans (h : Steps config agenda m completed agenda' m')
    (h' : Steps config agenda' m' completed' left m'') :
    Steps config agenda m (completed ++ completed') left m'' := by
  induction h with
  | stay => exact h'
  | assign he h ih => exact .assign he (ih h')
  | print he hw h ih => exact .print he hw (ih h')
  | empty h ih => exact .empty (ih h')
  | block h ih => exact .block (ih h')
  | taken hc h ih => exact .taken hc (ih h')
  | passed hc h ih => exact .passed hc (ih h')

/-- A step leaves what the run comes to as it is. -/
theorem runAll (h : Steps config agenda m completed left m') :
    Stmt.runAll config agenda m = Stmt.runAll config left m' := by
  induction h with
  | stay => rfl
  | assign he h ih => rw [runAll_cons, Stmt.run, he, ← ih]; rfl
  | print he hw h ih =>
      rw [runAll_cons, Stmt.run, he, ← ih]
      simp only [hw]
      rfl
  | empty h ih => rw [runAll_cons, Stmt.run, ← ih]; rfl
  | block h ih => rw [runAll_cons, Stmt.run, ← ih, runAll_append]
  | taken hc h ih => rw [runAll_cons, Stmt.run, hc, ← ih, runAll_cons]
  | passed hc h ih => rw [runAll_cons, Stmt.run, hc, ← ih]; rfl

/-- **The machine at a point of a run is what the completed statements make by themselves**, each
of them binding a variable or writing a line. -/
theorem completed_alone (h : Steps config agenda m completed left m') :
    Stmt.runAll config completed m = ⟨m', none⟩ ∧ ∀ s ∈ completed, s.IsAction := by
  induction h with
  | stay => exact ⟨rfl, List.forall_mem_nil _⟩
  | assign he h ih =>
      refine ⟨?_, List.forall_mem_cons.mpr ⟨trivial, ih.2⟩⟩
      rw [runAll_cons, Stmt.run, he]
      exact ih.1
  | print he hw h ih =>
      refine ⟨?_, List.forall_mem_cons.mpr ⟨trivial, ih.2⟩⟩
      rw [runAll_cons, Stmt.run, he]
      simp only [hw]
      exact ih.1
  | empty h ih | block h ih | taken hc h ih | passed hc h ih => exact ih

end Steps

/-! ### Every run is a run of steps

Running recurses on trees and tells of a failure only that there was one.  The steps know where it
was.  The recursion is followed once, here, and what comes later is an induction on steps.
-/

/-- The run of an agenda steps to `left`, or to a statement that fails by itself. -/
inductive Reaches (config : Config) (agenda : List Stmt) (m : Machine) (left : List Stmt) : Prop
  | ends {completed : List Stmt} {m' : Machine} (h : Steps config agenda m completed left m')
  | fails {completed rest : List Stmt} {s : Stmt} {m' m'' : Machine} {why : EvalError}
      (h : Steps config agenda m completed (s :: rest) m') (hs : s.Fails config m' why m'')

private theorem Reaches.after {agenda agenda' completed left : List Stmt} {m m' : Machine}
    (h : Steps config agenda m completed agenda' m') (h' : Reaches config agenda' m' left) :
    Reaches config agenda m left := by
  cases h' with
  | ends h' => exact .ends (h.trans h')
  | fails h' hs => exact .fails (h.trans h') hs

-- The recursion is on what is run, and the agenda behind it is carried along: a block is run as
-- its statements in front of that agenda.
mutual

theorem reaches_cons (config : Config) : ∀ (s : Stmt) (rest : List Stmt) (m : Machine),
    Reaches config (s :: rest) m rest
  | .block body, rest, m => (reaches_append config body rest m).after (.block (.stay _ m))
  | .empty, rest, m => .ends (.empty (.stay rest m))
  | .assign x e, rest, m => by
      cases he : e.eval config m.env with
      | ok v => exact .ends (.assign he (.stay rest _))
      | error why => exact .fails (.stay _ m) (.fault he)
  | .print e, rest, m => by
      cases he : e.eval config m.env with
      | error why => exact .fails (.stay _ m) (.fault he)
      | ok v =>
          rcases hw : m.sink.write (v.text ++ "\n") with ⟨sink, failure⟩
          cases failure with
          | none => exact .ends (.print he hw (.stay rest _))
          | some why => exact .fails (.stay _ m) (.write he hw)
  | .ifThen c body, rest, m => by
      cases hc : c.evalBool config m.env with
      | error why => exact .fails (.stay _ m) (.fault hc)
      | ok b =>
          cases b with
          | true => exact (reaches_cons config body rest m).after (.taken hc (.stay _ m))
          | false => exact .ends (.passed hc (.stay rest m))

theorem reaches_append (config : Config) : ∀ (ss rest : List Stmt) (m : Machine),
    Reaches config (ss ++ rest) m rest
  | [], rest, m => .ends (.stay rest m)
  | s :: ss, rest, m => by
      cases reaches_cons config s (ss ++ rest) m with
      | ends h => exact (reaches_append config ss rest _).after h
      | fails h hs => exact .fails h hs

end

/-- **A run steps to its end, or to a statement that fails by itself.** -/
theorem runAll_reaches (config : Config) (ss : List Stmt) (m : Machine) :
    (∃ completed m', Steps config ss m completed [] m' ∧ runAll config ss m = ⟨m', none⟩) ∨
    ∃ completed s rest m' why m'', Steps config ss m completed (s :: rest) m' ∧
      s.Fails config m' why m'' ∧ runAll config ss m = ⟨m'', some why⟩ := by
  have hreaches := reaches_append config ss [] m
  rw [List.append_nil] at hreaches
  cases hreaches with
  | ends h =>
      refine Or.inl ⟨_, _, h, ?_⟩
      rw [h.runAll]
      rfl
  | fails h hs =>
      refine Or.inr ⟨_, _, _, _, _, _, h, hs, ?_⟩
      rw [h.runAll, hs.runAll]

end Stmt

/-! ### Sinks that take everything

A full disk is another story, told where sinks have limits.  Without it a run can only fail by
what its statements evaluate, and its output can only grow.
-/

/-- Writes and flushes succeed. -/
structure Sink.TakesAll (s : Sink) : Prop where
  unlimited : s.limit = none
  flushes : s.refusesFlush = false

theorem Sink.takesAll_unlimited : Sink.unlimited.TakesAll :=
  ⟨rfl, rfl⟩

theorem Sink.TakesAll.write {s : Sink} (h : s.TakesAll) (text : String) :
    s.write text = ({ s with written := s.written ++ text.toUTF8 }, none) := by
  unfold Sink.write
  rw [h.unlimited]

theorem Sink.TakesAll.eq_of_write {s sink : Sink} {text : String} (h : s.TakesAll)
    (hw : s.write text = (sink, none)) : sink = { s with written := s.written ++ text.toUTF8 } := by
  rw [h.write] at hw
  exact (Prod.mk.inj hw).1.symm

theorem Sink.TakesAll.flush {s : Sink} (h : s.TakesAll) : s.flush = none := by
  unfold Sink.flush
  rw [h.flushes]
  rfl

theorem Sink.TakesAll.withWritten {s : Sink} (h : s.TakesAll) (bytes : ByteArray) :
    ({ s with written := bytes } : Sink).TakesAll :=
  ⟨h.unlimited, h.flushes⟩

namespace Stmt

/-- Along a run the output grows, and nothing else of the sink changes. -/
theorem Steps.sink {config : Config} {agenda completed left : List Stmt} {m m' : Machine}
    (h : Steps config agenda m completed left m') (hm : m.sink.TakesAll) :
    ∃ text, m'.sink = { m.sink with written := m.sink.written ++ text } := by
  induction h with
  | stay agenda m => exact ⟨.empty, by rw [ByteArray.append_empty]⟩
  | assign he h ih => exact ih hm
  | @print e v sink rest completed left m m' he hw h ih =>
      obtain rfl := hm.eq_of_write hw
      obtain ⟨text, htext⟩ := ih (hm.withWritten _)
      refine ⟨(v.text ++ "\n").toUTF8 ++ text, ?_⟩
      rw [htext, ← ByteArray.append_assoc]
  | empty h ih | block h ih | taken hc h ih | passed hc h ih => exact ih hm

theorem Steps.takesAll {config : Config} {agenda completed left : List Stmt} {m m' : Machine}
    (h : Steps config agenda m completed left m') (hm : m.sink.TakesAll) : m'.sink.TakesAll := by
  obtain ⟨text, htext⟩ := h.sink hm
  rw [htext]
  exact hm.withWritten _

/-- A run comes to its end here, or the statement before it fails by what it evaluates. -/
inductive Stops (config : Config) (env : Environment) : List Stmt → Option EvalError → Prop
  | ends : Stops config env [] none
  | faults {s : Stmt} {rest : List Stmt} {why : EvalError} (h : s.Faults config env why) :
      Stops config env (s :: rest) (some why)

theorem Stops.runAll {config : Config} {m : Machine} {left : List Stmt} {failure : Option EvalError}
    (h : Stops config m.env left failure) : Stmt.runAll config left m = ⟨m, failure⟩ := by
  cases h with
  | ends => rfl
  | faults h => exact (Fails.fault h).runAll _

/-- **On a sink that takes everything a run steps to where it stops**, and leaves the machine
that it has there. -/
theorem runAll_stops (config : Config) (ss : List Stmt) {m : Machine} (hm : m.sink.TakesAll) :
    ∃ completed left m' failure, Steps config ss m completed left m' ∧
      Stops config m'.env left failure ∧ runAll config ss m = ⟨m', failure⟩ := by
  rcases runAll_reaches config ss m with
    ⟨completed, m', h, hrun⟩ | ⟨completed, s, rest, m', why, m'', h, hs, hrun⟩
  · exact ⟨completed, [], m', none, h, .ends, hrun⟩
  · cases hs with
    | fault hs => exact ⟨completed, s :: rest, m', some why, h, .faults hs, hrun⟩
    | write he hw =>
        rw [(h.takesAll hm).write] at hw
        cases hw

end Stmt

/-- Where the flush at the end succeeds, executing a program is running it. -/
theorem Program.execute_of_runAll {config : Config} {p : Program} {m m' : Machine}
    {failure : Option EvalError} (h : Stmt.runAll config p m = ⟨m', failure⟩)
    (hflush : m'.sink.refusesFlush = false) : p.execute config m = ⟨m', failure⟩ := by
  rw [Program.execute, h]
  cases failure with
  | none =>
      simp only [Sink.flush, hflush]
      rfl
  | some why => rfl

theorem Program.execute_eq_runAll (config : Config) (p : Program) {m : Machine}
    (hm : m.sink.TakesAll) : p.execute config m = Stmt.runAll config p m := by
  obtain ⟨completed, left, m', failure, h, -, hrun⟩ := Stmt.runAll_stops config p hm
  rw [hrun]
  exact execute_of_runAll hrun (h.takesAll hm).flushes

end LoopFree
