/-
Running programs.

A machine is the variables and the output sink.  Statements run one after another until
one fails.  Whatever was assigned and written before the failure stays, so a run always
leaves a machine, and says beside it whether it failed.

A sink keeps bytes up to its limit, where it has one.  A text that goes past the limit is
kept up to it, and the write fails.
-/
import LoopFree.Eval
import LoopFree.Syntax.Parser

namespace LoopFree

/-- Where printed text goes. -/
structure Sink where
  /-- The bytes kept so far. -/
  written : ByteArray
  /-- How many bytes the sink can keep, if not any number. -/
  limit : Option Nat
  /-- The sink fails when it is flushed. -/
  refusesFlush : Bool

namespace Sink

/-- A sink that takes everything. -/
def unlimited : Sink := ⟨.empty, none, false⟩

/-- Writes a text; the failure is told beside the sink. -/
def write (s : Sink) (text : String) : Sink × Option SinkFailure :=
  let all := s.written ++ text.toUTF8
  match s.limit with
  | none => ({ s with written := all }, none)
  | some n =>
      if all.size ≤ n then ({ s with written := all }, none)
      else ({ s with written := all.extract 0 n }, some .full)

/-- What a flush comes to. -/
def flush (s : Sink) : Option SinkFailure :=
  if s.refusesFlush then some .flushRefused else none

end Sink

/-- What a program runs on. -/
structure Machine where
  env : Environment
  sink : Sink

/-- What a run leaves, and why it stopped early, if it did. -/
structure Outcome where
  machine : Machine
  failure : Option EvalError

mutual

/-- Runs a statement. -/
def Stmt.run (config : Config) : Stmt → Machine → Outcome
  | .block body, m => Stmt.runAll config body m
  | .empty, m => ⟨m, none⟩
  | .assign x e, m =>
      match e.eval config m.env with
      | .ok v => ⟨{ m with env := m.env.set x v }, none⟩
      | .error why => ⟨m, some why⟩
  | .print e, m =>
      match e.eval config m.env with
      | .ok v =>
          let (sink, failure) := m.sink.write (v.text ++ "\n")
          ⟨{ m with sink := sink }, failure.map .output⟩
      | .error why => ⟨m, some why⟩
  | .ifThen c body, m =>
      match c.evalBool config m.env with
      | .ok true => body.run config m
      | .ok false => ⟨m, none⟩
      | .error why => ⟨m, some why⟩

/-- Runs statements in order, up to the first failure. -/
def Stmt.runAll (config : Config) : List Stmt → Machine → Outcome
  | [], m => ⟨m, none⟩
  | s :: rest, m =>
      match s.run config m with
      | ⟨m, none⟩ => Stmt.runAll config rest m
      | failed => failed

end

/-- Runs a program, and flushes the sink if nothing failed. -/
def Program.execute (config : Config) (p : Program) (m : Machine) : Outcome :=
  match Stmt.runAll config p m with
  | ⟨m, none⟩ => ⟨m, m.sink.flush.map .output⟩
  | failed => failed

/-- Why a source was not run to its end. -/
inductive Failure
  /-- It could not be cut into tokens. -/
  | lexical (why : LexError)
  /-- It is no program. -/
  | syntactic (why : ParseError)
  /-- It stopped while running. -/
  | runtime (why : EvalError)
deriving Repr, DecidableEq

namespace Failure

/-- The failure to parse a source.  What kept the tokens from being read is lexical. -/
def ofParseError : ParseError → Failure
  | .lexical why => lexical why
  | why => syntactic why

/-- The failure in words, after the stage it arose in. -/
def message : Failure → String
  | lexical why => "lexical error: " ++ why.message
  | syntactic why => "syntax error: " ++ why.message
  | runtime why => "runtime error: " ++ why.message

end Failure

/-- Parses a source and runs it with no variable bound.  The sink is told also when the run
failed; nothing runs before the whole source has been parsed. -/
def Source.run (s : Source) (config : Config) (sink : Sink) : Sink × Option Failure :=
  match s.parse with
  | .error why => (sink, some (.ofParseError why))
  | .ok p =>
      let o := p.execute config ⟨.empty, sink⟩
      (o.machine.sink, o.failure.map .runtime)

end LoopFree
