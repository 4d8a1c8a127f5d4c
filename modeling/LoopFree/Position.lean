/-
Places in a source text.

Lines and columns count from one, and a column counts characters.
-/

namespace LoopFree

/-- The line and the column of a character, both counted from one. -/
structure Position where
  line : Nat
  column : Nat
deriving Repr, DecidableEq, Inhabited

namespace Position

/-- The place `n` characters further along the same line. -/
def advance (p : Position) (n : Nat) : Position :=
  { p with column := p.column + n }

/-- The written form, `line:column`. -/
def text (p : Position) : String :=
  Nat.repr p.line ++ ":" ++ Nat.repr p.column

end Position

end LoopFree
