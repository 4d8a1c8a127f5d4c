/-
Lines behind lines.

A text or a byte string is cut into lines, and cutting is undone by putting the lines together
again; so lines can be taken out of a source, or put behind it, on the level of lines
(`splitLines_append`, `splitLines_flatten`).

A cursor reads the lines it has before it reads any behind them.  `Cursor.extend` puts lines
behind those of a cursor, and `next_extend` says what that changes of a step: nothing but its
reaching the end, where it goes on with the lines behind.
-/
import LoopFree.Proofs.Token.Cutting
import LoopFree.Proofs.Token.Unreadable

namespace LoopFree

/-! ### Lines put together

Leaving lines out of a source, or putting more behind it, is done to bytes, where there are no
lines yet.  The lines come out as they were as long as none but the last lacks its end.
-/

section SplitLines

variable {α : Type} {ends : α → Bool}

/-- The elements end a line, if there are any. -/
def IsEnded (ends : α → Bool) (as : List α) : Prop :=
  ∀ a ∈ as.getLast?, ends a = true

/-- Behind the end of a line cutting starts afresh. -/
theorem splitLines_append {as : List α} (h : IsEnded ends as) (bs : List α) :
    splitLines ends (as ++ bs) = splitLines ends as ++ splitLines ends bs := by
  induction as with
  | nil => rfl
  | cons a rest ih =>
      cases rest with
      | nil =>
          have ha : ends a = true := h a rfl
          simp only [splitLines, ha, if_true, List.cons_append, List.nil_append]
      | cons b rest =>
          have hrest := ih h
          cases hlines : splitLines ends (b :: rest) with
          | nil => exact absurd (splitLines_eq_nil hlines) (List.cons_ne_nil b rest)
          | cons line lines =>
              rw [hlines] at hrest
              rw [List.cons_append, splitLines, splitLines, hrest, hlines]
              split <;> rfl

/-- What is cut off is one line, and only the last line may lack its end. -/
theorem lines_of_splitLines (as : List α) :
    (∀ line ∈ splitLines ends as, splitLines ends line = [line]) ∧
      (splitLines ends as).Pairwise fun line _ => IsEnded ends line := by
  induction as with
  | nil => exact ⟨List.forall_mem_nil _, .nil⟩
  | cons a rest ih =>
      obtain ⟨hlines, hended⟩ := ih
      rw [splitLines]
      by_cases ha : ends a = true
      · rw [if_pos ha]
        refine ⟨List.forall_mem_cons.mpr ⟨?_, hlines⟩, List.pairwise_cons.mpr ⟨?_, hended⟩⟩
        · simp only [splitLines, ha, if_true]
        · intro _ _ b hb
          rw [← Option.some.inj hb]
          exact ha
      · rw [if_neg ha]
        cases hsplit : splitLines ends rest with
        | nil => simp [splitLines, ha]
        | cons line lines =>
            rw [hsplit] at hlines hended
            obtain ⟨hline, hlines⟩ := List.forall_mem_cons.mp hlines
            obtain ⟨hfirst, hended⟩ := List.pairwise_cons.mp hended
            have hne : line ≠ [] := by
              rintro rfl
              cases hline
            refine ⟨List.forall_mem_cons.mpr ⟨?_, hlines⟩, List.pairwise_cons.mpr ⟨?_, hended⟩⟩
            · simp only [splitLines, if_neg ha, hline]
            · intro later hlater b hb
              rw [List.getLast?_cons_of_ne_nil hne] at hb
              exact hfirst later hlater b hb

/-- **Lines put together are cut into the same lines.** -/
theorem splitLines_flatten {lines : List (List α)}
    (hlines : ∀ line ∈ lines, splitLines ends line = [line])
    (hended : lines.Pairwise fun line _ => IsEnded ends line) :
    splitLines ends lines.flatten = lines := by
  induction lines with
  | nil => rfl
  | cons line lines ih =>
      obtain ⟨hline, hlines⟩ := List.forall_mem_cons.mp hlines
      obtain ⟨hfirst, hended⟩ := List.pairwise_cons.mp hended
      cases lines with
      | nil => simpa using hline
      | cons next lines =>
          rw [List.flatten_cons, splitLines_append (hfirst next List.mem_cons_self),
            ih hlines hended, hline, List.singleton_append]

end SplitLines

namespace Cursor

/-! ### Lines behind a cursor

A cursor sees the line it is in and, when that is done with, the next one.  What else is behind it
shows only where there was nothing.
-/

/-- The cursor with more lines behind those it has. -/
def extend (c : Cursor) (more : List Line) : Cursor :=
  { c with unread := c.unread ++ more }

@[simp] private theorem extend_rest (c : Cursor) (more : List Line) :
    (c.extend more).rest = c.rest := rfl

/-- The step where more lines are behind. -/
def Step.extend (more : List Line) : Step → Step
  | .lexeme l after => .lexeme l (after.extend more)
  | .done after => nextLine after.position more
  | .failed why after => .failed why (after.extend more)

/-- A token is looked for in the current line alone. -/
theorem scanHere_extend {c : Cursor} (hne : c.rest ≠ []) (more : List Line) :
    (c.extend more).scanHere = c.scanHere.extend more := by
  obtain ⟨ch, cs, hrest⟩ := List.exists_cons_of_ne_nil hne
  unfold scanHere
  rw [extend_rest]
  cases hscan : scan c.rest with
  | token | unexpected | malformed => rfl
  | nothing =>
      rw [hrest] at hscan
      exact absurd hscan (scan_cons_ne_nothing ch cs)

private theorem nextLine_extend {lines : List Line} (more : List Line) : ∀ p : Position,
    nextLine p (lines ++ more) = (nextLine p lines).extend more := by
  induction lines with
  | nil =>
      intro p
      rfl
  | cons line unread ih =>
      intro p
      cases line with
      | unreadable why => rfl
      | text chars =>
          have henter : (enterLine chars p.line (unread ++ more)).skipBlanks
              = (enterLine chars p.line unread).skipBlanks.extend more := rfl
          rw [List.cons_append, nextLine, nextLine, henter, extend_rest]
          split
          · exact ih _
          · rename_i hne
            exact scanHere_extend (mt List.isEmpty_iff.mpr hne) more

/-- **Lines behind a cursor change a step only where it would reach the end.** -/
theorem next_extend (c : Cursor) (more : List Line) :
    (c.extend more).next = c.next.extend more := by
  have hskip : (c.extend more).skipBlanks = c.skipBlanks.extend more := rfl
  rw [next, next, hskip, extend_rest]
  split
  · exact nextLine_extend more _
  · rename_i hne
    exact scanHere_extend (mt List.isEmpty_iff.mpr hne) more

theorem next_extend_of {c : Cursor} {step : Step} (h : c.next = step) (more : List Line) :
    (c.extend more).next = step.extend more := by
  rw [next_extend, h]

/-- So a cursor gives its own tokens first. -/
theorem lexemes_extend (c : Cursor) (more : List Line) :
    c.feed.lexemes <+: (c.extend more).feed.lexemes := by
  induction c using next_induction with
  | done c after h =>
      rw [feed_of_done h]
      exact List.nil_prefix
  | failed c why after h =>
      rw [feed_of_failed h]
      exact List.nil_prefix
  | lexeme c l after h ih =>
      rw [feed_of_lexeme h, feed_of_lexeme (next_extend_of h more)]
      exact List.cons_prefix_cons.mpr ⟨rfl, ih⟩

end Cursor

end LoopFree
