/-
What a scanned token takes from the text.

`scan` cuts one token off the head of a text.  What it cuts off is the token's own
text, and that is never empty: each of the three scanners splits its input in two, and
what it splits off is an operator of the table, a word or a literal.  So the text that
is left is shorter, which is what lets a reader count its steps in characters.
-/
import LoopFree.Token.Scan

namespace LoopFree

/-! ### Operators -/

private theorem foldl_longer_mem {es : List Entry} :
    ∀ {best : Option Entry} {e : Entry},
      es.foldl longer best = some e → best = some e ∨ e ∈ es := by
  induction es with
  | nil => intro best e h; exact Or.inl h
  | cons a rest ih =>
      intro best e h
      rw [List.foldl_cons] at h
      rcases ih h with hl | hr
      · unfold longer at hl
        split at hl
        · split at hl
          · exact Or.inr (by simp [← Option.some.inj hl])
          · exact Or.inl hl
        · exact Or.inr (by simp [← Option.some.inj hl])
      · exact Or.inr (by simp [hr])

/-- The longest operator is one of the table, and the text starts with it. -/
theorem longestOperator_some {table : List Entry} {cs : List Char} {e : Entry}
    (h : longestOperator table cs = some e) : e ∈ table ∧ e.1.toList <+: cs := by
  rcases foldl_longer_mem h with hn | hm
  · simp at hn
  · obtain ⟨hmem, hpre⟩ := List.mem_filter.mp hm
    exact ⟨hmem, List.isPrefixOf_iff_prefix.mp hpre⟩

/-- The spelling in a table of operators is the token's text. -/
theorem text_of_mem_operators : ∀ e ∈ operators, e.2.text = e.1 ∧ e.1.toList ≠ [] := by
  decide

/-- The spelling in a table of keywords is the token's text. -/
theorem text_of_mem_keywords : ∀ e ∈ keywords, e.2.text = e.1 := by
  decide

/-! ### Words -/

theorem keyword?_eq_some {w : String} {t : Token} (h : keyword? w = some t) :
    (w, t) ∈ keywords := by
  unfold keyword? at h
  obtain ⟨e, he, rfl⟩ := Option.map_eq_some_iff.mp h
  have hmem := List.mem_of_find?_eq_some he
  have hname := List.find?_some he
  simp only [beq_iff_eq] at hname
  subst hname
  exact hmem

/-- A word keeps its text, be it a keyword or a name. -/
theorem Token.text_ofWord (w : String) : (Token.ofWord w).text = w := by
  unfold Token.ofWord
  cases h : keyword? w with
  | none => rfl
  | some t => exact text_of_mem_keywords _ (keyword?_eq_some h)

/-! ### Number literals -/

theorem takeMantissa_append {cs : List Char} {m : Mantissa} (h : takeMantissa cs = some m) :
    m.text ++ m.rest = cs := by
  unfold takeMantissa at h
  simp only at h
  split at h
  · split at h
    · split at h
      · cases h
      · cases h; simp
    · cases h
  · split at h
    · rename_i after hafter
      cases h
      simp only [List.append_assoc, List.cons_append, List.takeWhile_append_dropWhile]
      rw [← hafter, List.takeWhile_append_dropWhile]
    · cases h; simp

/-- A mantissa has a digit. -/
theorem takeMantissa_ne_nil {cs : List Char} {m : Mantissa} (h : takeMantissa cs = some m) :
    m.text ≠ [] := by
  unfold takeMantissa at h
  simp only at h
  split at h
  · split at h
    · split at h
      · cases h
      · cases h; simp
    · cases h
  · rename_i hne
    split at h
    · cases h; simp
    · cases h; simpa using hne

theorem takeSign_append (cs : List Char) : (takeSign cs).1 ++ (takeSign cs).2 = cs := by
  unfold takeSign
  split
  · split <;> simp
  · rfl

private theorem takeExponent_append {cs e rest : List Char}
    (h : takeExponent cs = .present e rest) : e ++ rest = cs := by
  unfold takeExponent at h
  split at h
  · cases h
  · split at h
    · simp only at h
      split at h
      · cases h
      · cases h
        simp [List.takeWhile_append_dropWhile, takeSign_append]
    · cases h

private theorem takeLiteral_append {cs rest : List Char} {t : Token}
    (h : takeLiteral cs = .literal t rest) :
    t.text.toList ++ rest = cs ∧ t.text.toList ≠ [] := by
  unfold takeLiteral at h
  split at h
  · cases h
  · rename_i m hm
    have hsplit := takeMantissa_append hm
    have hne := takeMantissa_ne_nil hm
    split at h
    · cases h
      have htext : (if m.hasPoint then Token.float (String.ofList m.text)
          else .integer (String.ofList m.text)).text = String.ofList m.text := by
        split <;> rfl
      rw [htext]
      exact ⟨by simpa using hsplit, by simpa using hne⟩
    · rename_i e rest' he
      cases h
      have hexp := takeExponent_append he
      refine ⟨?_, ?_⟩
      · simp only [Token.text, String.toList_ofList, List.append_assoc, hexp]
        exact hsplit
      · simp [Token.text, hne]
    · cases h

/-! ### Tokens -/

/-- **A scanned token is the head of the text**, and there is something of it. -/
theorem scan_append {cs rest : List Char} {t : Token} (h : scan cs = .token t rest) :
    t.text.toList ++ rest = cs ∧ t.text.toList ≠ [] := by
  unfold scan at h
  split at h
  · rename_i s t' hop
    cases h
    obtain ⟨hmem, hpre⟩ := longestOperator_some hop
    obtain ⟨htext, hne⟩ := text_of_mem_operators _ hmem
    simp only at htext hne hpre
    rw [htext]
    exact ⟨List.prefix_iff_eq_append.mp hpre, hne⟩
  · split at h
    · rename_i word rest' hword
      cases h
      have hsplit := takeWord_append hword
      have hw := isWord_of_takeWord hword
      rw [Token.text_ofWord, String.toList_ofList]
      refine ⟨hsplit, ?_⟩
      rintro rfl
      simp [isWord] at hw
    · split at h
      · rename_i t' rest' hlit
        cases h
        exact takeLiteral_append hlit
      · cases h
      · split at h <;> cases h

/-- What is left after a token is shorter. -/
theorem length_lt_of_scan {cs rest : List Char} {t : Token} (h : scan cs = .token t rest) :
    rest.length < cs.length := by
  obtain ⟨hsplit, hne⟩ := scan_append h
  have hpos : 0 < t.text.toList.length := List.length_pos_iff.mpr hne
  rw [← hsplit, List.length_append]
  omega

/-! ### Failures -/

/-- A character is refused where no mantissa is. -/
theorem takeMantissa_of_scan_unexpected {cs : List Char} {c : Char} (h : scan cs = .unexpected c) :
    takeMantissa cs = none := by
  unfold scan at h
  split at h
  · cases h
  · split at h
    · cases h
    · split at h
      · cases h
      · cases h
      · rename_i habsent
        unfold takeLiteral at habsent
        split at habsent
        · rename_i hnone
          exact hnone
        · split at habsent <;> cases habsent

/-- A literal is refused where an exponent is, behind a mantissa. -/
theorem takeMantissa_of_scan_malformed {cs : List Char} {literal : String}
    (h : scan cs = .malformed literal) :
    ∃ m e, takeMantissa cs = some m ∧ takeExponent m.rest = .malformed e ∧
      literal = String.ofList (m.text ++ e) := by
  unfold scan at h
  split at h
  · cases h
  · split at h
    · cases h
    · split at h
      · cases h
      · rename_i text hlit
        cases h
        unfold takeLiteral at hlit
        split at hlit
        · cases hlit
        · rename_i m hm
          split at hlit
          · cases hlit
          · cases hlit
          · rename_i e he
            cases hlit
            exact ⟨m, e, hm, he, rfl⟩
      · split at h <;> cases h

/-! ### Names -/

/-- A word that is no keyword. -/
def IsName (x : String) : Prop :=
  isWord x.toList = true ∧ keyword? x = none

instance (x : String) : Decidable (IsName x) :=
  inferInstanceAs (Decidable (_ ∧ _))

/-- A name is read as itself. -/
theorem IsName.ofWord {x : String} (h : IsName x) : Token.ofWord x = .identifier x := by
  rw [Token.ofWord, h.2]
  rfl

/-- If the token is an identifier, then of a name. -/
def Token.Named (t : Token) : Prop :=
  ∀ x, t = .identifier x → IsName x

end LoopFree
