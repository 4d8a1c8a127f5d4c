/-
Variables and what they hold.

There is one scope.  A variable keeps its place when it is given another value; the
listing puts the names in order of their characters.
-/
import LoopFree.Value

namespace LoopFree

/-- The variables that are bound, each once. -/
structure Environment where
  bindings : List (String × Value)

namespace Environment

/-- No variable is bound. -/
def empty : Environment := ⟨[]⟩

/-- Gives a variable a value in a list of bindings. -/
def bind (name : String) (v : Value) : List (String × Value) → List (String × Value)
  | [] => [(name, v)]
  | (x, w) :: rest => if x = name then (x, v) :: rest else (x, w) :: bind name v rest

/-- Gives a variable a value, in place of the one it had. -/
def set (env : Environment) (name : String) (v : Value) : Environment :=
  ⟨bind name v env.bindings⟩

/-- The value of a variable, if it is bound. -/
def get? (env : Environment) (name : String) : Option Value :=
  (env.bindings.find? fun b => b.1 = name).map (·.2)

/-- The bindings in order of the names. -/
def listing (env : Environment) : List (String × Value) :=
  env.bindings.mergeSort fun a b => decide (a.1 ≤ b.1)

/-- The same variables are bound, to equal values. -/
def same (a b : Environment) : Bool :=
  a.bindings.length == b.bindings.length &&
    a.bindings.all fun (x, v) => (b.get? x).any v.same

/-- A variable that has just been set has the value it was set to, and no other variable
has changed. -/
theorem get?_set (env : Environment) (name : String) (v : Value) (x : String) :
    (env.set name v).get? x = if x = name then some v else env.get? x := by
  obtain ⟨bs⟩ := env
  simp only [set, get?]
  induction bs with
  | nil => by_cases h : x = name <;> simp [bind, h, eq_comm]
  | cons b rest ih =>
      obtain ⟨y, w⟩ := b
      by_cases hy : y = name
      · subst hy
        by_cases hx : x = y
        · subst hx
          simp [bind]
        · have : ¬ y = x := fun h => hx h.symm
          simp [bind, this, hx]
      · by_cases hx : y = x
        · subst hx
          simp [bind, hy]
        · simpa [bind, hy, hx] using ih

end Environment

end LoopFree
