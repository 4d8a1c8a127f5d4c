/-
Sets of characters given as ranges of code points.

A property of characters is written down as a list of ranges in ascending order.  The
lookup walks the list only as far as the first range that ends at or after the character,
so the early ranges, which hold the ASCII characters, are found first.  `contains_iff`
says that on an ascending list nothing is missed by stopping there.
-/

namespace LoopFree.Text

/-- The code points from `first` to `last`, both included. -/
structure CodeRange where
  first : Nat
  last : Nat
deriving Repr, DecidableEq

namespace CodeRange

/-- The code point lies in the range. -/
def Covers (r : CodeRange) (n : Nat) : Prop :=
  r.first ≤ n ∧ n ≤ r.last

/-- Whether a code point lies in one of the ranges of an ascending list. -/
def contains : List CodeRange → Nat → Bool
  | [], _ => false
  | r :: rest, n => if n ≤ r.last then decide (r.first ≤ n) else contains rest n

/-- The ranges do not overlap, and each starts after the one before it ends. -/
def Ascending : List CodeRange → Prop
  | r :: s :: rest => r.last < s.first ∧ Ascending (s :: rest)
  | _ => True

/-- In an ascending list of proper ranges every later range starts after the first one's end. -/
theorem Ascending.last_lt {r : CodeRange} {rest : List CodeRange} (h : Ascending (r :: rest))
    (proper : ∀ s ∈ r :: rest, s.first ≤ s.last) : ∀ s ∈ rest, r.last < s.first := by
  induction rest generalizing r with
  | nil => simp
  | cons t rest ih =>
      intro s hs
      obtain ⟨hlt, hrest⟩ := h
      have ht : t.first ≤ t.last := proper t (by simp)
      rcases List.mem_cons.1 hs with rfl | hs
      · exact hlt
      · have := ih hrest (fun u hu => proper u (List.mem_cons_of_mem _ hu)) s hs
        omega

/-- The early stop of the lookup loses nothing on an ascending list. -/
theorem contains_iff {ranges : List CodeRange} (h : Ascending ranges)
    (proper : ∀ s ∈ ranges, s.first ≤ s.last) (n : Nat) :
    contains ranges n = true ↔ ∃ r ∈ ranges, r.Covers n := by
  induction ranges with
  | nil => simp [contains]
  | cons r rest ih =>
      have later := h.last_lt proper
      have tail : Ascending rest := by
        cases rest with
        | nil => trivial
        | cons _ _ => exact h.2
      rw [contains]
      split
      · next hle =>
          constructor
          · intro hfirst
            exact ⟨r, by simp, of_decide_eq_true hfirst, hle⟩
          · rintro ⟨s, hs, hlo, hhi⟩
            rcases List.mem_cons.1 hs with rfl | hs
            · exact decide_eq_true hlo
            · have := later s hs
              omega
      · next hgt =>
          rw [ih tail fun s hs => proper s (List.mem_cons_of_mem _ hs)]
          constructor
          · rintro ⟨s, hs, hc⟩
            exact ⟨s, List.mem_cons_of_mem _ hs, hc⟩
          · rintro ⟨s, hs, hc⟩
            rcases List.mem_cons.1 hs with rfl | hs
            · exact absurd hc.2 hgt
            · exact ⟨s, hs, hc⟩

end CodeRange

end LoopFree.Text
