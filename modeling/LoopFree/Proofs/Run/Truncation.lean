/-
Runs on a sink with a limit.

A limit cuts the output off and changes nothing else.  The run with the limit is compared with
the run of the same program without it.  As long as the output of the one without stays within
the limit, every step of it is a step of the other (`Steps.limitedTo`).  And if its output goes
past the limit, there is a first line that does (`Steps.overflows`): up to that line the two runs
go together, and there the limited one fails, with what fits of the line written.
-/
import LoopFree.Proofs.Run.Steps

namespace LoopFree

/-- The same sink, with room for so many bytes in all. -/
def Sink.limitedTo (n : Nat) (s : Sink) : Sink :=
  { s with limit := some n }

/-- The same machine, its sink with room for so many bytes in all. -/
def Machine.limitedTo (n : Nat) (m : Machine) : Machine :=
  { m with sink := m.sink.limitedTo n }

/-- The head of a byte string is not changed by what is appended behind it. -/
theorem extract_append_of_le {a : ByteArray} (b : ByteArray) {n : Nat}
    (h : n ≤ a.size) : (a ++ b).extract 0 n = a.extract 0 n := by
  rw [ByteArray.extract_append, Nat.zero_sub, Nat.sub_eq_zero_of_le h]
  simp

namespace Sink

/-- What fits is written. -/
theorem write_limitedTo_of_le (s : Sink) {text : String} {n : Nat}
    (h : (s.written ++ text.toUTF8).size ≤ n) :
    (s.limitedTo n).write text
      = ({ s with written := s.written ++ text.toUTF8 : Sink }.limitedTo n, none) :=
  if_pos h

/-- Of what does not fit, the head is written. -/
theorem write_limitedTo_of_lt (s : Sink) {text : String} {n : Nat}
    (h : n < (s.written ++ text.toUTF8).size) :
    (s.limitedTo n).write text
      = ({ s with written := (s.written ++ text.toUTF8).extract 0 n : Sink }.limitedTo n,
          some .full) :=
  if_neg (Nat.not_le.mpr h)

end Sink

namespace Stmt

variable {config : Config} {agenda completed left : List Stmt} {m m' : Machine} {n : Nat}

private theorem Steps.size_le (h : Steps config agenda m completed left m') (hm : m.sink.TakesAll) :
    m.sink.written.size ≤ m'.sink.written.size := by
  obtain ⟨text, htext⟩ := h.sink hm
  rw [htext, ByteArray.size_append]
  exact Nat.le_add_right _ _

/-- **Up to a point where the output fits, the limit is not felt.** -/
theorem Steps.limitedTo (h : Steps config agenda m completed left m') (hm : m.sink.TakesAll)
    (hfits : m'.sink.written.size ≤ n) :
    Steps config agenda (m.limitedTo n) completed left (m'.limitedTo n) := by
  induction h with
  | stay agenda m => exact .stay agenda _
  | assign he h ih => exact .assign he (ih hm hfits)
  | print he hw h ih =>
      obtain rfl := hm.eq_of_write hw
      have hline := Nat.le_trans (h.size_le (hm.withWritten _)) hfits
      exact .print he (Sink.write_limitedTo_of_le _ hline) (ih (hm.withWritten _) hfits)
  | empty h ih => exact .empty (ih hm hfits)
  | block h ih => exact .block (ih hm hfits)
  | taken hc h ih => exact .taken hc (ih hm hfits)
  | passed hc h ih => exact .passed hc (ih hm hfits)

/-- The output fits into `n` bytes so far, and with the line that `print e` writes it does not. -/
structure Crosses (config : Config) (n : Nat) (m : Machine) (e : Expr) (v : Value) : Prop where
  value : e.eval config m.env = .ok v
  fits : m.sink.written.size ≤ n
  exceeds : n < (m.sink.written ++ (v.text ++ "\n").toUTF8).size

/-- The run comes to a line that goes past `n` bytes, and its output is this in the end. -/
inductive Overflows (config : Config) (n : Nat) (agenda : List Stmt) (m : Machine)
    (output : ByteArray) : Prop
  | mk {completed rest : List Stmt} {e : Expr} {v : Value} {m₁ : Machine} {more : ByteArray}
      (h : Steps config agenda m completed (.print e :: rest) m₁) (hcross : Crosses config n m₁ e v)
      (houtput : output = m₁.sink.written ++ (v.text ++ "\n").toUTF8 ++ more)

private theorem Overflows.after {agenda' : List Stmt} {output : ByteArray}
    (h : Steps config agenda m completed agenda' m') (h' : Overflows config n agenda' m' output) :
    Overflows config n agenda m output := by
  obtain ⟨hsteps, hcross, houtput⟩ := h'
  exact .mk (h.trans hsteps) hcross houtput

/-- **A run whose output goes past `n` bytes comes to a line that does.** -/
theorem Steps.overflows (h : Steps config agenda m completed left m') (hm : m.sink.TakesAll)
    (hfits : m.sink.written.size ≤ n) (hexceeds : n < m'.sink.written.size) :
    Overflows config n agenda m m'.sink.written := by
  induction h with
  | stay agenda m => exact absurd hfits (Nat.not_le.mpr hexceeds)
  | assign he h ih => exact (ih hm hfits hexceeds).after (.assign he (.stay _ _))
  | @print e v sink rest completed left m m' he hw h ih =>
      obtain rfl := hm.eq_of_write hw
      by_cases hline : (m.sink.written ++ (v.text ++ "\n").toUTF8).size ≤ n
      · exact (ih (hm.withWritten _) hline hexceeds).after (.print he hw (.stay _ _))
      · obtain ⟨more, hmore⟩ := h.sink (hm.withWritten _)
        refine .mk (.stay _ m) ⟨he, hfits, Nat.not_le.mp hline⟩ (?_ : _ = _ ++ _ ++ more)
        rw [hmore]
  | empty h ih => exact (ih hm hfits hexceeds).after (.empty (.stay _ _))
  | block h ih => exact (ih hm hfits hexceeds).after (.block (.stay _ _))
  | taken hc h ih => exact (ih hm hfits hexceeds).after (.taken hc (.stay _ _))
  | passed hc h ih => exact (ih hm hfits hexceeds).after (.passed hc (.stay _ _))

/-- Where a line goes past the limit, the run with the limit fails, and what fits is written. -/
theorem Crosses.fails {e : Expr} {v : Value} (h : Crosses config n m e v) :
    (Stmt.print e).Fails config (m.limitedTo n) (.output .full)
      ⟨m.env, { m.sink with
        written := (m.sink.written ++ (v.text ++ "\n").toUTF8).extract 0 n : Sink }.limitedTo n⟩ :=
  .write h.value (Sink.write_limitedTo_of_lt m.sink h.exceeds)

end Stmt

namespace Program

variable (config : Config) (p : Program) {m : Machine} {n : Nat}

/-- A program whose output fits is executed as if there were no limit. -/
theorem execute_limitedTo_of_le (hm : m.sink.TakesAll)
    (hfits : (p.execute config m).machine.sink.written.size ≤ n) :
    p.execute config (m.limitedTo n)
      = ⟨(p.execute config m).machine.limitedTo n, (p.execute config m).failure⟩ := by
  obtain ⟨completed, left, m', failure, h, hstops, hrun⟩ := Stmt.runAll_stops config p hm
  rw [execute_eq_runAll config p hm, hrun] at hfits ⊢
  refine execute_of_runAll ?_ (h.takesAll hm).flushes
  rw [(h.limitedTo hm hfits).runAll]
  exact Stmt.Stops.runAll (m := m'.limitedTo n) hstops

/-- A program whose output does not fit is executed up to the first line that goes past the
limit. -/
theorem execute_limitedTo_of_lt (hm : m.sink.TakesAll) (hstart : m.sink.written.size ≤ n)
    (hexceeds : n < (p.execute config m).machine.sink.written.size) :
    ∃ completed e rest m₁ v, Stmt.Steps config p m completed (.print e :: rest) m₁ ∧
      Stmt.Crosses config n m₁ e v ∧
      p.execute config (m.limitedTo n) =
        ⟨⟨m₁.env, { m₁.sink with
            written := (p.execute config m).machine.sink.written.extract 0 n : Sink }.limitedTo n⟩,
          some (.output .full)⟩ := by
  obtain ⟨completed, left, m', failure, h, -, hrun⟩ := Stmt.runAll_stops config p hm
  rw [execute_eq_runAll config p hm, hrun] at hexceeds ⊢
  obtain @⟨done, rest, e, v, m₁, more, hsteps, hcross, houtput⟩ :=
    h.overflows hm hstart hexceeds
  refine ⟨done, e, rest, m₁, v, hsteps, hcross, ?_⟩
  have hhead : m'.sink.written.extract 0 n
      = (m₁.sink.written ++ (v.text ++ "\n").toUTF8).extract 0 n := by
    rw [houtput]
    exact extract_append_of_le more (Nat.le_of_lt hcross.exceeds)
  refine execute_of_runAll ?_ (hsteps.takesAll hm).flushes
  rw [(hsteps.limitedTo hm hcross.fits).runAll, hcross.fails.runAll, hhead]

/-- **A limit on the sink cuts the output off and changes nothing else.**  Where the output fits,
the program is executed as on a sink without a limit.  Where it does not, the first `n` bytes of
it are written, the sink is full, and the variables are what they were before the `print` whose
line is the first to go past them. -/
theorem execute_truncated (env : Environment) (n : Nat) :
    let free := p.execute config ⟨env, .unlimited⟩
    let limited := p.execute config ⟨env, Sink.unlimited.limitedTo n⟩
    (free.machine.sink.written.size ≤ n →
      limited.machine.sink.written = free.machine.sink.written ∧
        limited.machine.env = free.machine.env ∧ limited.failure = free.failure) ∧
    (n < free.machine.sink.written.size →
      limited.machine.sink.written = free.machine.sink.written.extract 0 n ∧
        limited.failure = some (.output .full) ∧
        ∃ completed e rest m v,
          Stmt.Steps config p ⟨env, .unlimited⟩ completed (.print e :: rest) m ∧
          Stmt.Crosses config n m e v ∧ limited.machine.env = m.env) := by
  intro free limited
  have hm : (Machine.mk env .unlimited).sink.TakesAll := Sink.takesAll_unlimited
  constructor
  · intro hfits
    have hsame := execute_limitedTo_of_le config p hm hfits
    rw [show limited = _ from hsame]
    exact ⟨rfl, rfl, rfl⟩
  · intro hexceeds
    obtain ⟨completed, e, rest, m, v, hsteps, hcross, hcut⟩ :=
      execute_limitedTo_of_lt config p hm (Nat.zero_le n) hexceeds
    rw [show limited = _ from hcut]
    exact ⟨rfl, rfl, completed, e, rest, m, v, hsteps, hcross, rfl⟩

/-- With room for four bytes, the line of `x` loses its end, and `y` is not looked up. -/
theorem execute_truncated_fourBytes :
    let p : Program :=
      [.print (.int 12), .assign "x" (.int 7), .print (.var "x"), .print (.var "y")]
    let free := p.execute .default ⟨.empty, .unlimited⟩
    let limited := p.execute .default ⟨.empty, Sink.unlimited.limitedTo 4⟩
    4 < free.machine.sink.written.size ∧ free.failure = some (.undefinedVariable "y") ∧
      limited.machine.sink.written = free.machine.sink.written.extract 0 4 ∧
      limited.failure = some (.output .full) := by
  intro p free limited
  have hexceeds : 4 < free.machine.sink.written.size := by decide +kernel
  have hcut := (execute_truncated .default p .empty 4).2 hexceeds
  exact ⟨hexceeds, by decide +kernel, hcut.1, hcut.2.1⟩

end Program

end LoopFree
