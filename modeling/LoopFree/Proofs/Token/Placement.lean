/-
Where the tokens of a text stand.

Reading a text loses nothing of it: what is not the text of a token is a blank, up to the
place where reading ends.  And the position of a token says where its text starts, however
many lines the blanks before it ran over.

`LaidOut` is a text cut up from the left, with what stands before it: gaps of blanks, the
texts of the tokens between them, and what reading ends at.  A text that is cut into tokens is
laid out as these tokens, the blanks that are passed over one by one making the gaps.
-/
import LoopFree.Proofs.Token.Cutting

namespace LoopFree

/-! ### What reading ends at

An error shows the character, or the literal as far as it goes.  What it shows must be what stands
in the text, at the place it gives.
-/

/-- At place `p` reading ends for this reason: there is nothing more, or what is left starts with
a character or a literal that is no token. -/
inductive EndsAt (p : Position) : List Char → Option LexError → Prop
  | ended : EndsAt p [] none
  | unexpected {c : Char} {rest : List Char} :
      EndsAt p (c :: rest) (some (.unexpectedCharacter c p))
  | malformed {literal : String} {rest : List Char} :
      EndsAt p (literal.toList ++ rest) (some (.malformedExponent literal p))

theorem head?_of_scan_unexpected {cs : List Char} {c : Char} (h : scan cs = .unexpected c) :
    cs.head? = some c := by
  unfold scan at h
  split at h
  · cases h
  · split at h
    · cases h
    · split at h
      · cases h
      · cases h
      · split at h <;> cases h
        rfl

private theorem prefix_of_takeExponent {cs e : List Char} (h : takeExponent cs = .malformed e) :
    e <+: cs := by
  unfold takeExponent at h
  split at h
  · cases h
  · rename_i mark after
    split at h
    · simp only at h
      split at h
      · cases h
        refine List.cons_prefix_cons.mpr ⟨rfl, (takeSign after).2, takeSign_append after⟩
      · cases h
    · cases h

private theorem prefix_of_scan_malformed {cs : List Char} {literal : String}
    (h : scan cs = .malformed literal) : literal.toList <+: cs := by
  obtain ⟨m, e, hm, he, rfl⟩ := takeMantissa_of_scan_malformed h
  rw [String.toList_ofList, ← takeMantissa_append hm]
  exact (List.prefix_append_right_inj m.text).mpr (prefix_of_takeExponent he)

/-! ### Cutting a text up

No scanner is left in this description.  There are gaps, and the texts of tokens between them, and
each place is that of a text that was passed; so anybody can check it who has the text and the
tokens.
-/

/-- The text, which stands after `before`, is made of these tokens and of blanks, up to the place
where reading ends; and the tokens stand where they say. -/
inductive LaidOut : List Char → List Char → List Lexeme → Option LexError → Prop
  | ends {before gap rest : List Char} {cut : Option LexError} (hgap : IsGap gap)
      (hends : EndsAt (.after (before ++ gap)) rest cut) : LaidOut before (gap ++ rest) [] cut
  | lexeme {before gap text : List Char} {t : Token} {ls : List Lexeme} {cut : Option LexError}
      (hgap : IsGap gap) (hne : t.text.toList ≠ []) (ht : t.WellFormed)
      (rest : LaidOut (before ++ gap ++ t.text.toList) text ls cut) :
      LaidOut before (gap ++ (t.text.toList ++ text)) (⟨t, .after (before ++ gap)⟩ :: ls) cut

/-- A blank at the head belongs to the gap there. -/
theorem LaidOut.blank {b : Char} {before text : List Char} {ls : List Lexeme}
    {cut : Option LexError} (hb : Text.isBlank b = true)
    (h : LaidOut (before ++ [b]) text ls cut) : LaidOut before (b :: text) ls cut := by
  have hcons : ∀ {gap : List Char}, IsGap gap → IsGap (b :: gap) := by
    intro gap hgap
    exact List.forall_mem_cons.mpr ⟨hb, hgap⟩
  cases h with
  | ends hgap hends =>
      rw [← List.append_cons] at hends
      exact .ends (hcons hgap) hends
  | lexeme hgap hne ht rest =>
      rw [← List.append_cons] at rest ⊢
      exact .lexeme (hcons hgap) hne ht rest

/-- What a scan fails with is at the head of the text. -/
theorem endsAt_of_failure {p : Position} {text : List Char} {why : LexError}
    (h : (scan (headLine text)).failure? p = some why) : EndsAt p text (some why) := by
  rcases Scan.failure?_eq_some h with ⟨c, hscan, rfl⟩ | ⟨literal, hscan, rfl⟩
  · have hhead := head?_of_scan_unexpected hscan
    rw [head?_headLine] at hhead
    obtain ⟨rest, rfl⟩ := List.head?_eq_some_iff.mp hhead
    exact .unexpected
  · obtain ⟨tail, rfl⟩ := (prefix_of_scan_malformed hscan).trans (isPrefix_headLine text)
    exact .malformed

/-- **A text is laid out as the tokens that it is cut into.** -/
theorem Cuts.laidOut {before text : List Char} {ls : List Lexeme} {cut : Option LexError}
    (h : Cuts before text ls cut) : LaidOut before text ls cut := by
  have hnone : IsGap [] := by decide
  induction h with
  | @ended before => exact @LaidOut.ends before [] [] none hnone .ended
  | blank hb h ih => exact ih.blank hb
  | @lexeme t before text left ls cut hscan h ih =>
      obtain ⟨rfl, hne⟩ := scan_append hscan
      rw [← List.append_nil before] at ih
      have hall := LaidOut.lexeme hnone hne (wellFormed_of_scan hscan) ih
      rw [List.append_nil, List.nil_append] at hall
      exact hall
  | @fails b before rest why hb hscan =>
      have hends := endsAt_of_failure hscan
      rw [← List.append_nil before] at hends
      exact @LaidOut.ends before [] (b :: rest) (some why) hnone hends

/-! ### Whole sources -/

theorem Source.laidOut (s : String) :
    LaidOut [] s.toList (Source.ofString s).feed.lexemes (Source.ofString s).feed.cut :=
  (cuts s).laidOut

/-- A text can be read but where a character or a literal is no token. -/
theorem LaidOut.persists {before text : List Char} {ls : List Lexeme} {cut : Option LexError}
    (h : LaidOut before text ls cut) : ∀ why, cut = some why → why.Persists := by
  induction h with
  | ends hgap hends =>
      intro why hwhy
      cases hends <;> cases hwhy <;> trivial
  | lexeme hgap hne ht rest ih => exact ih

/-- A text cut up is a layout of its tokens, with what is left at the end. -/
theorem LaidOut.layOut {before text : List Char} {ls : List Lexeme} {cut : Option LexError}
    (h : LaidOut before text ls cut) :
    ∃ (lead : List Char) (pieces : List (Token × List Char)) (rest : List Char),
      text = LoopFree.layOut lead pieces ++ rest ∧ IsGap lead ∧
      (∀ piece ∈ pieces, piece.1.WellFormed ∧ piece.1.text.toList ≠ [] ∧ IsGap piece.2) ∧
      (∀ i : Nat, ls[i]? = pieces[i]?.map fun piece =>
        ⟨piece.1, .after (before ++ LoopFree.layOut lead (pieces.take i))⟩) ∧
      EndsAt (.after (before ++ LoopFree.layOut lead pieces)) rest cut := by
  induction h with
  | @ends before gap rest cut hgap hends =>
      exact ⟨gap, [], rest, rfl, hgap, by simp, by simp, hends⟩
  | @lexeme before gap text t ls cut hgap hne ht rest ih =>
      obtain ⟨lead, pieces, rest, htext, hlead, hpieces, hplaces, hends⟩ := ih
      have hcons : ∀ pieces, before ++ LoopFree.layOut gap ((t, lead) :: pieces)
          = before ++ gap ++ t.text.toList ++ LoopFree.layOut lead pieces := by
        intro pieces
        simp only [LoopFree.layOut, List.append_assoc]
      refine ⟨gap, (t, lead) :: pieces, rest, ?_, hgap, ?_, ?_, ?_⟩
      · rw [htext]
        simp only [LoopFree.layOut, List.append_assoc]
      · exact List.forall_mem_cons.mpr ⟨⟨ht, hne, hlead⟩, hpieces⟩
      · intro i
        cases i with
        | zero => rfl
        | succ i =>
            rw [List.getElem?_cons_succ, List.getElem?_cons_succ, List.take_succ_cons, hcons]
            exact hplaces i
      · rw [hcons]
        exact hends

/-- **Reading loses nothing of a text, and the positions are exact.**  The text is its tokens
with gaps before, between and after them, and then what reading ended at, if it did not reach
the end.  Every token stands where the text before it puts it, and so does a failure. -/
theorem Source.feed_lossless (s : String) :
    ∃ (lead : List Char) (pieces : List (Token × List Char)) (rest : List Char),
      s.toList = layOut lead pieces ++ rest ∧ IsGap lead ∧
      (∀ piece ∈ pieces, piece.1.text.toList ≠ [] ∧
        (∀ c ∈ piece.1.text.toList, Text.isBlank c = false) ∧ IsGap piece.2) ∧
      (∀ i : Nat, (Source.ofString s).feed.lexemes[i]? = pieces[i]?.map fun piece =>
        ⟨piece.1, .after (layOut lead (pieces.take i))⟩) ∧
      EndsAt (.after (layOut lead pieces)) rest (Source.ofString s).feed.cut := by
  obtain ⟨lead, pieces, rest, htext, hlead, hpieces, hplaces, hends⟩ := (laidOut s).layOut
  refine ⟨lead, pieces, rest, htext, hlead, fun piece hpiece => ?_, hplaces, hends⟩
  obtain ⟨ht, hne, hgap⟩ := hpieces piece hpiece
  exact ⟨hne, ht.not_blank, hgap⟩

end LoopFree
