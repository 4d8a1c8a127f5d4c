/-
Where a token ends.

A scanner takes as much as it can: behind a word stands no character of a word, behind digits
no digit, and behind a mantissa no mark of an exponent.  So what stands right behind a scanned
token does not go on its text.  That is also all that matters: `scan_eq_token_iff` says that a
text is scanned as a token exactly when it starts with a spelling of it and the next character
does not go on that.  What comes after the next character is never looked at
(`scan_token_congr`).
-/
import LoopFree.Proofs.Token.WellFormed

namespace LoopFree

/-- Behind a run of characters of a kind stands none of them. -/
theorem not_of_mem_head?_dropWhile {p : Char → Bool} {cs : List Char} :
    ∀ c ∈ (cs.dropWhile p).head?, p c = false := by
  intro c hc
  have hnot := List.head?_dropWhile_not p cs
  rw [hc] at hnot
  exact hnot

theorem takeWord_ends {cs word rest : List Char} (h : takeWord cs = some (word, rest)) :
    ∀ c ∈ rest.head?, isWordChar c = false := by
  cases cs with
  | nil => cases h
  | cons c cs =>
      rw [takeWord] at h
      split at h
      · cases h
        exact not_of_mem_head?_dropWhile
      · cases h

/-- Behind a mantissa stands no digit, and no point that it could have. -/
theorem takeMantissa_ends {cs : List Char} {m : Mantissa} (h : takeMantissa cs = some m) :
    (∀ c ∈ m.rest.head?, c.isDigit = false) ∧
      (m.hasPoint = false → ∀ c ∈ m.rest.head?, c ≠ '.') := by
  unfold takeMantissa at h
  simp only at h
  split at h
  · split at h
    · split at h
      · cases h
      · cases h
        exact ⟨not_of_mem_head?_dropWhile, nofun⟩
    · cases h
  · split at h
    · cases h
      exact ⟨not_of_mem_head?_dropWhile, nofun⟩
    · rename_i hpoint
      cases h
      refine ⟨not_of_mem_head?_dropWhile, fun _ c hc hdot => ?_⟩
      obtain ⟨after, hafter⟩ := List.head?_eq_some_iff.mp hc
      rw [hdot] at hafter
      exact hpoint after hafter

private theorem takeExponent_absent_ends {rest : List Char} (h : takeExponent rest = .absent) :
    ∀ c ∈ rest.head?, c ≠ 'e' ∧ c ≠ 'E' := by
  unfold takeExponent at h
  split at h
  · exact nofun
  · split at h
    · simp only at h
      split at h <;> cases h
    · rename_i c after hmark
      intro d hd
      rw [List.head?_cons, Option.mem_some_iff] at hd
      rw [← hd]
      simpa using hmark

theorem IsExponent.mark_mem {e : List Char} (h : IsExponent e) : 'e' ∈ e ∨ 'E' ∈ e := by
  obtain ⟨hmark, -, -⟩ := h
  rcases hmark with rfl | rfl <;> simp

/-- Behind an exponent stands no digit. -/
theorem takeExponent_ends {cs e rest : List Char} (h : takeExponent cs = .present e rest) :
    ∀ c ∈ rest.head?, c.isDigit = false := by
  unfold takeExponent at h
  split at h
  · cases h
  · split at h
    · simp only at h
      split at h
      · cases h
      · cases h
        exact not_of_mem_head?_dropWhile
    · cases h

private theorem takeLiteral_ends {cs rest : List Char} {t : Token}
    (h : takeLiteral cs = .literal t rest) : ∀ c ∈ rest.head?, t.EndsBefore c := by
  unfold takeLiteral at h
  split at h
  · cases h
  · rename_i m hm
    obtain ⟨hdigit, hpoint⟩ := takeMantissa_ends hm
    split at h
    · rename_i habsent
      have hexponent := takeExponent_absent_ends habsent
      cases h
      intro c hc
      cases hp : m.hasPoint with
      | false => exact ⟨hdigit c hc, hpoint hp c hc, hexponent c hc⟩
      | true => exact ⟨hdigit c hc, fun _ _ => hexponent c hc⟩
    · rename_i e rest' hpresent
      cases h
      intro c hc
      refine ⟨takeExponent_ends hpresent c hc, fun he hE => ?_⟩
      refine absurd (isExponent_of_takeExponent hpresent).mark_mem ?_
      rw [String.toList_ofList, List.mem_append, not_or] at he hE
      exact not_or.mpr ⟨he.2, hE.2⟩
    · cases h

/-- **What stands behind a scanned token does not go on its text.** -/
theorem endsBefore_of_scan {cs rest : List Char} {t : Token} (h : scan cs = .token t rest) :
    ∀ c ∈ rest.head?, t.EndsBefore c := by
  unfold scan at h
  split at h
  · rename_i s t' hop
    cases h
    exact fun c _ => endsBefore_of_mem_operators _ (longestOperator_some hop).1 c
  · split at h
    · rename_i word rest' hword
      cases h
      exact fun c hc => (Token.endsBefore_ofWord _ c).mpr (takeWord_ends hword c hc)
    · split at h
      · rename_i t' rest' hlit
        cases h
        exact takeLiteral_ends hlit
      · cases h
      · split at h <;> cases h

/-- **A text is scanned as a token exactly when it starts with a spelling of it that the next
character does not go on.** -/
theorem scan_eq_token_iff {cs rest : List Char} {t : Token} :
    scan cs = .token t rest ↔
      t.text.toList ++ rest = cs ∧ t.WellFormed ∧ ∀ c ∈ rest.head?, t.EndsBefore c := by
  constructor
  · intro h
    exact ⟨(scan_append h).1, wellFormed_of_scan h, endsBefore_of_scan h⟩
  · rintro ⟨rfl, ht, hrest⟩
    exact ht.scan_of_endsBefore hrest

/-- The scanner looks no further than at the character behind the token. -/
theorem scan_token_congr {rest rest' : List Char} {t : Token}
    (h : scan (t.text.toList ++ rest) = .token t rest) (hhead : rest'.head? = rest.head?) :
    scan (t.text.toList ++ rest') = .token t rest' := by
  obtain ⟨-, ht, hrest⟩ := scan_eq_token_iff.mp h
  rw [← hhead] at hrest
  exact ht.scan_of_endsBefore hrest

end LoopFree
