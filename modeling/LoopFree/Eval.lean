/-
The value of an expression.

Evaluation goes from left to right and never skips an operand.  Integers are 64 bits wide,
and a result that does not fit is an error.  Division gives a float, also of two integers.
An operator on an integer and a float works on floats.  The connectives take booleans
only, and the left operand has to be one before the right operand is looked at.

Programs written for the first release of the language read `-` as `+`.  The subtraction
mode says which reading holds; in the old one everything about `-` is as if `+` stood
there.
-/
import LoopFree.Environment

namespace LoopFree

/-- What `-` does. -/
inductive SubtractionMode
  /-- It subtracts. -/
  | difference
  /-- It adds. -/
  | legacySum
deriving Repr, DecidableEq

/-- The options that change how a program is evaluated. -/
structure Config where
  subtraction : SubtractionMode
deriving Repr, DecidableEq

/-- Without options `-` subtracts. -/
def Config.default : Config := ⟨.difference⟩

/-- The same options with a subtraction mode. -/
def Config.withSubtraction (_ : Config) (mode : SubtractionMode) : Config := ⟨mode⟩

/-- The same options with `-` adding. -/
def Config.withLegacySubtraction (c : Config) : Config := c.withSubtraction .legacySum

/-- The operator that a written one is read as. -/
def SubtractionMode.reading (mode : SubtractionMode) : ArithOp → ArithOp
  | .sub =>
      match mode with
      | difference => .sub
      | legacySum => .add
  | op => op

/-- Why an output sink takes no more. -/
inductive SinkFailure
  /-- It has kept all it can. -/
  | full
  /-- It will not be flushed. -/
  | flushRefused
deriving Repr, DecidableEq

/-- The failure in words. -/
def SinkFailure.message : SinkFailure → String
  | full => "sink full"
  | flushRefused => "flush refused"

/-- Why a program stopped. -/
inductive EvalError
  | undefinedVariable (name : String)
  | divisionByZero
  /-- The result of an operator on integers is no integer of 64 bits. -/
  | overflow (op : ArithOp) (left right : Int64)
  /-- An operator on numbers met a boolean. -/
  | typeMismatch (op : ArithOp) (left right : ValueKind)
  /-- A number stands where a boolean is needed. -/
  | notABoolean (found : ValueKind)
  /-- The output could not be written. -/
  | output (why : SinkFailure)
deriving Repr, DecidableEq

/-- The error in words. -/
def EvalError.message : EvalError → String
  | undefinedVariable x => "variable '" ++ x ++ "' is not defined"
  | divisionByZero => "division by zero"
  | overflow op l r =>
      "integer overflow in '" ++ infixText (intText l) op.symbol (intText r) ++ "'"
  | typeMismatch op l r =>
      "operator '" ++ op.symbol ++ "' cannot be applied to " ++ l.name ++ " and " ++ r.name
  | notABoolean k => "expected a boolean, found " ++ k.name
  | output why => "failed to write program output: " ++ why.message

/-- The float nearest to an integer. -/
def floatOfInt (n : Int64) : Float :=
  Binary64.ofInt n.toInt

/-- An operator on floats. -/
def ArithOp.onFloats : ArithOp → Float → Float → Except EvalError Value
  | add, a, b => .ok (.float (a + b))
  | sub, a, b => .ok (.float (a - b))
  | mul, a, b => .ok (.float (a * b))
  | div, a, b => if b == 0 then .error .divisionByZero else .ok (.float (a / b))

/-- The exact result of an operator on integers, division apart. -/
def ArithOp.exact : ArithOp → Int → Int → Option Int
  | add, a, b => some (a + b)
  | sub, a, b => some (a - b)
  | mul, a, b => some (a * b)
  | div, _, _ => none

/-- The number fits into 64 bits. -/
def fitsInt64 (n : Int) : Prop :=
  Int64.minValue.toInt ≤ n ∧ n ≤ Int64.maxValue.toInt

instance (n : Int) : Decidable (fitsInt64 n) :=
  inferInstanceAs (Decidable (_ ∧ _))

/-- An operator on integers. -/
def ArithOp.onInts (op : ArithOp) (a b : Int64) : Except EvalError Value :=
  match op.exact a.toInt b.toInt with
  | some n =>
      if fitsInt64 n then .ok (.int (Int64.ofInt n)) else .error (.overflow op a b)
  | none => op.onFloats (floatOfInt a) (floatOfInt b)

/-- An operator on numbers. -/
def ArithOp.apply (op : ArithOp) : Value → Value → Except EvalError Value
  | .int a, .int b => op.onInts a b
  | .int a, .float b => op.onFloats (floatOfInt a) b
  | .float a, .int b => op.onFloats a (floatOfInt b)
  | .float a, .float b => op.onFloats a b
  | l, r => .error (.typeMismatch op l.kind r.kind)

/-- A connective. -/
def LogicOp.apply : LogicOp → Bool → Bool → Bool
  | and, a, b => a && b
  | or, a, b => a || b

/-- A comparison. -/
def CompareOp.apply : CompareOp → Value → Value → Bool
  | eq, a, b => a.same b
  | notEq, a, b => !a.same b

/-- A value where a boolean is needed. -/
def Value.asBool : Value → Except EvalError Bool
  | bool b => .ok b
  | v => .error (.notABoolean v.kind)

namespace Expr

/-- The value of an expression. -/
def eval (config : Config) (env : Environment) : Expr → Except EvalError Value
  | int n => .ok (.int n)
  | float x => .ok (.float x)
  | bool b => .ok (.bool b)
  | var x =>
      match env.get? x with
      | some v => .ok v
      | none => .error (.undefinedVariable x)
  | arith op l r => do
      let a ← l.eval config env
      let b ← r.eval config env
      (config.subtraction.reading op).apply a b
  | logic op l r => do
      let a ← (← l.eval config env).asBool
      let b ← (← r.eval config env).asBool
      return .bool (op.apply a b)
  | compare op l r => do
      let a ← l.eval config env
      let b ← r.eval config env
      return .bool (op.apply a b)

/-- The value of an expression where a boolean is needed. -/
def evalBool (config : Config) (env : Environment) (e : Expr) : Except EvalError Bool := do
  (← e.eval config env).asBool

end Expr

end LoopFree
