/-
What it is worth that two tables fit together.

The check of the tables looks at one entry after another: a keyword has to be a word, and an
operator must not start like one.  What it names is the first entry in the way, and keywords come
before operators.

From the entries alone it follows that the two tables never compete for a text.  Where an operator
stands no word starts, and where a keyword stands and ends, the word that starts there is the
keyword.  So it does not matter which of the two is tried first.  An empty spelling is let through
by the check and stands everywhere, taking nothing; it is the one thing that could come between,
and only where a word starts.
-/
import LoopFree.Proofs.Token.Ending

namespace LoopFree

variable {ops kws : List Entry} {cs : List Char}

/-! ### The first entry in the way

Whether two tables fit has nothing to do with the order of their entries.  Which entry is named
when they do not has, and both are wanted.
-/

/-- The spelling is that of the first entry that is in the way. -/
def NamesFirst (inTheWay : String → Prop) (table : List Entry) (spelling : String) : Prop :=
  ∃ before e after, table = before ++ e :: after ∧ e.1 = spelling ∧ inTheWay spelling ∧
    ∀ b ∈ before, ¬ inTheWay b.1

/-- Looking for an entry by its spelling finds the first. -/
theorem find?_spelling_iff (p : String → Bool) (table : List Entry) (spelling : String) :
    (∃ e, table.find? (fun e => p e.1) = some e ∧ e.1 = spelling) ↔
      NamesFirst (fun s => p s = true) table spelling := by
  constructor
  · rintro ⟨e, hfind, rfl⟩
    obtain ⟨hp, before, after, htable, hbefore⟩ := List.find?_eq_some_iff_append.mp hfind
    exact ⟨before, e, after, htable, rfl, hp, fun b hb => by simpa using hbefore b hb⟩
  · rintro ⟨before, e, after, htable, rfl, hp, hbefore⟩
    refine ⟨e, List.find?_eq_some_iff_append.mpr ⟨hp, before, after, htable, ?_⟩, rfl⟩
    exact fun b hb => by simpa using hbefore b hb

/-- Every keyword is a word, and no operator starts like one. -/
structure TablesFit (ops kws : List Entry) : Prop where
  words : ∀ e ∈ kws, isWord e.1.toList = true
  apart : ∀ e ∈ ops, startsWord e.1.toList = false

/-- No keyword is in the way exactly when all are words. -/
theorem find?_keyword_eq_none_iff :
    kws.find? (fun e => !isWord e.1.toList) = none ↔ ∀ e ∈ kws, isWord e.1.toList = true := by
  simp [List.find?_eq_none]

private theorem validateTables_eq_ok_iff : validateTables ops kws = .ok () ↔ TablesFit ops kws := by
  unfold validateTables
  constructor
  · intro h
    split at h
    · cases h
    · rename_i hwords
      split at h
      · cases h
      · rename_i hapart
        refine ⟨find?_keyword_eq_none_iff.mp hwords, fun e he => ?_⟩
        simpa using List.find?_eq_none.mp hapart e he
  · rintro ⟨hwords, hapart⟩
    have hnone : ops.find? (fun e => startsWord e.1.toList) = none := by
      simpa [List.find?_eq_none] using hapart
    simp only [find?_keyword_eq_none_iff.mpr hwords, hnone]

private theorem validateTables_eq_keyword_iff (spelling : String) :
    validateTables ops kws = .error (.keywordNotWord spelling) ↔
      NamesFirst (fun s => isWord s.toList = false) kws spelling := by
  have hfirst := find?_spelling_iff (fun s => !isWord s.toList) kws spelling
  simp only [Bool.not_eq_true'] at hfirst
  rw [← hfirst]
  unfold validateTables
  split
  · rename_i e he
    simp [he]
  · rename_i hnone
    rw [hnone]
    split <;> simp

private theorem validateTables_eq_operator_iff (spelling : String) :
    validateTables ops kws = .error (.operatorStartsWord spelling) ↔
      (∀ e ∈ kws, isWord e.1.toList = true) ∧
        NamesFirst (fun s => startsWord s.toList = true) ops spelling := by
  rw [← find?_spelling_iff, ← find?_keyword_eq_none_iff]
  unfold validateTables
  split
  · rename_i e he
    simp [he]
  · rename_i hnone
    rw [hnone]
    split
    · rename_i e he
      simp [he]
    · rename_i hnone'
      simp [hnone']

/-! ### Operators and words

To say what is taken from a text, trying operators first and trying words first are written as two
functions.  Where at most one of them can take something, their order cannot matter.
-/

/-- The word at the head of a text is as much of the text as can stand in one. -/
theorem takeWord_eq_some_iff {word rest : List Char} :
    takeWord cs = some (word, rest) ↔
      word ++ rest = cs ∧ isWord word = true ∧ ∀ c ∈ rest.head?, isWordChar c = false := by
  constructor
  · exact fun h => ⟨takeWord_append h, isWord_of_takeWord h, takeWord_ends h⟩
  · rintro ⟨rfl, hword, hrest⟩
    cases word with
    | nil => cases hword
    | cons c word =>
        obtain ⟨hc, hall⟩ := Bool.and_eq_true_iff.mp hword
        have hrun := List.all_eq_true.mp hall
        rw [List.cons_append, takeWord, if_pos hc, takeWhile_append_stop hrun hrest,
          dropWhile_append_stop hrun hrest]

/-- A word stands at the head of a text where the text starts like one. -/
theorem takeWord_eq_none_iff : takeWord cs = none ↔ startsWord cs = false := by
  cases cs with
  | nil => simp [takeWord, startsWord]
  | cons c cs => simp [takeWord, startsWord]

/-- A text starts as its head does. -/
theorem startsWord_of_prefix {head : List Char} (hne : head ≠ []) (h : head <+: cs) :
    startsWord cs = startsWord head := by
  obtain ⟨rest, rfl⟩ := h
  obtain ⟨c, head, rfl⟩ := List.exists_cons_of_ne_nil hne
  rfl

/-- The operator of a table at the head of a text, as a token and what follows it. -/
def operatorOf (table : List Entry) (cs : List Char) : Option (Token × List Char) :=
  (longestOperator table cs).map fun e => (e.2, cs.drop e.1.toList.length)

/-- The word at the head of a text, as a token and what follows it: a keyword of the table, or
else a name. -/
def wordOf (table : List Entry) (cs : List Char) : Option (Token × List Char) :=
  (takeWord cs).map fun (word, rest) =>
    let spelling := String.ofList word
    (((table.find? fun e => e.1 == spelling).map (·.2)).getD (.identifier spelling), rest)

/-- The entries of a table that take something from a text. -/
def spelledOut (table : List Entry) : List Entry :=
  table.filter fun e => e.1 ≠ ""

/-- Of two tries of which one fails either may come first. -/
theorem or_comm_of_none {α : Type} {x y : Option α} (h : x = none ∨ y = none) :
    x.or y = y.or x := by
  rcases h with rfl | rfl <;> simp

private theorem foldl_longer_ne_none (es : List Entry) : ∀ {best : Option Entry},
    best ≠ none ∨ es ≠ [] → es.foldl longer best ≠ none := by
  induction es with
  | nil =>
      intro best h
      exact h.resolve_right fun hne => hne rfl
  | cons e es ih =>
      intro best _
      rw [List.foldl_cons]
      refine ih (Or.inl ?_)
      unfold longer
      split
      · split <;> exact Option.some_ne_none _
      · exact Option.some_ne_none _

/-- An operator that stands at the head of a text keeps others from being overlooked. -/
theorem longestOperator_ne_none {table : List Entry} {e : Entry} (he : e ∈ table)
    (h : e.1.toList <+: cs) : longestOperator table cs ≠ none := by
  refine foldl_longer_ne_none _ (Or.inr ?_)
  exact List.ne_nil_of_mem (List.mem_filter.mpr ⟨he, List.isPrefixOf_iff_prefix.mpr h⟩)

namespace TablesFit

variable (h : TablesFit ops kws)
include h

/-- Where an operator stands no word starts. -/
theorem takeWord_of_operator {e : Entry} (he : e ∈ ops) (hne : e.1 ≠ "")
    (hhead : e.1.toList <+: cs) : takeWord cs = none := by
  rw [takeWord_eq_none_iff, startsWord_of_prefix (by simpa using hne) hhead]
  exact h.apart e he

/-- Where a keyword stands and ends, it is the word that starts there. -/
theorem takeWord_of_keyword {e : Entry} (he : e ∈ kws) {rest : List Char}
    (hrest : ∀ c ∈ rest.head?, isWordChar c = false) :
    takeWord (e.1.toList ++ rest) = some (e.1.toList, rest) :=
  takeWord_eq_some_iff.mpr ⟨rfl, h.words e he, hrest⟩

/-- Where a word starts, no operator stands but an empty one. -/
theorem eq_empty_of_longestOperator (hstarts : startsWord cs = true) {e : Entry}
    (he : longestOperator ops cs = some e) : e.1 = "" := by
  obtain ⟨hmem, hhead⟩ := longestOperator_some he
  refine Decidable.byContradiction fun hne => ?_
  have hnone := h.takeWord_of_operator hmem hne hhead
  rw [takeWord_eq_none_iff, hstarts] at hnone
  cases hnone

/-- Without an empty operator one of the two tries fails. -/
theorem operatorOf_or_wordOf (hne : startsWord cs = true → ∀ e ∈ ops, e.1 ≠ "") :
    (operatorOf ops cs).or (wordOf kws cs) = (wordOf kws cs).or (operatorOf ops cs) := by
  refine or_comm_of_none ?_
  cases hstarts : startsWord cs with
  | false =>
      refine Or.inr ?_
      rw [wordOf, takeWord_eq_none_iff.mpr hstarts]
      rfl
  | true =>
      refine Or.inl ?_
      cases hlongest : longestOperator ops cs with
      | none =>
          rw [operatorOf, hlongest]
          rfl
      | some e =>
          have hempty := h.eq_empty_of_longestOperator hstarts hlongest
          exact absurd hempty (hne hstarts e (longestOperator_some hlongest).1)

/-- Where a word starts, an empty operator comes before it or behind it. -/
theorem ne_empty_of_order (hstarts : startsWord cs = true)
    (horder : (operatorOf ops cs).or (wordOf kws cs) = (wordOf kws cs).or (operatorOf ops cs)) :
    ∀ e ∈ ops, e.1 ≠ "" := by
  intro e he hempty
  have hhead : e.1.toList <+: cs := by
    rw [hempty]
    exact List.nil_prefix
  obtain ⟨e', hlongest⟩ := Option.ne_none_iff_exists'.mp (longestOperator_ne_none he hhead)
  have hempty' := h.eq_empty_of_longestOperator hstarts hlongest
  have hword : takeWord cs ≠ none := by
    rw [Ne, takeWord_eq_none_iff, hstarts]
    exact Bool.noConfusion
  obtain ⟨⟨word, rest⟩, hword⟩ := Option.ne_none_iff_exists'.mp hword
  -- The empty operator leaves the whole text, the word leaves less.
  rw [operatorOf, hlongest, wordOf, hword, Option.map_some, Option.map_some, Option.some_or,
    Option.some_or, Option.some.injEq, Prod.mk.injEq] at horder
  have hwhole : cs = rest := by simpa [hempty'] using horder.2
  obtain ⟨happend, hisWord, -⟩ := takeWord_eq_some_iff.mp hword
  rw [hwhole, List.append_left_eq_self] at happend
  rw [happend] at hisWord
  cases hisWord

theorem mono {ops' : List Entry} (hsub : ops' ⊆ ops) : TablesFit ops' kws :=
  ⟨h.words, fun e he => h.apart e (hsub he)⟩

end TablesFit

/-- The scanner's own tables fit together. -/
theorem tablesFit : TablesFit operators keywords :=
  validateTables_eq_ok_iff.mp rfl

/-- **The scanner tries operators first, and might as well try words first.** -/
theorem scan_eq_of_wordFirst {t : Token} {rest : List Char}
    (h : (wordOf keywords cs).or (operatorOf operators cs) = some (t, rest)) :
    scan cs = .token t rest := by
  have hne : ∀ e ∈ operators, e.1 ≠ "" := by decide
  rw [← tablesFit.operatorOf_or_wordOf fun _ => hne, operatorOf, wordOf] at h
  unfold scan operator?
  cases hop : longestOperator operators cs with
  | some e =>
      rw [hop] at h
      cases h
      rfl
  | none =>
      rw [hop] at h
      cases hword : takeWord cs with
      | none =>
          rw [hword] at h
          cases h
      | some w =>
          rw [hword] at h
          cases h
          rfl

/-! ### What the check guarantees -/

/-- **The check of the tables, and what follows from it.**  Tables are accepted when every keyword
is a word and no operator starts like one; else the first keyword in the way is named, or the first
operator if no keyword is.  In accepted tables no operator stands where a word starts, a keyword
that ends is taken as the word it is, and of operators and words either may be tried first.  Only
an empty operator could make a difference there, and it does wherever a word starts. -/
theorem validateTables_guarantees (ops kws : List Entry) :
    (validateTables ops kws = .ok () ↔
      (∀ e ∈ kws, isWord e.1.toList = true) ∧ ∀ e ∈ ops, startsWord e.1.toList = false) ∧
    (∀ spelling, validateTables ops kws = .error (.keywordNotWord spelling) ↔
      NamesFirst (fun s => isWord s.toList = false) kws spelling) ∧
    (∀ spelling, validateTables ops kws = .error (.operatorStartsWord spelling) ↔
      (∀ e ∈ kws, isWord e.1.toList = true) ∧
        NamesFirst (fun s => startsWord s.toList = true) ops spelling) ∧
    (validateTables ops kws = .ok () → ∀ cs : List Char,
      (∀ e ∈ ops, e.1 ≠ "" → e.1.toList <+: cs → takeWord cs = none) ∧
      (∀ e ∈ kws, ∀ rest, cs = e.1.toList ++ rest → (∀ c ∈ rest.head?, isWordChar c = false) →
        takeWord cs = some (e.1.toList, rest)) ∧
      (operatorOf (spelledOut ops) cs).or (wordOf kws cs)
        = (wordOf kws cs).or (operatorOf (spelledOut ops) cs) ∧
      ((operatorOf ops cs).or (wordOf kws cs) = (wordOf kws cs).or (operatorOf ops cs) ↔
        (startsWord cs = true → ∀ e ∈ ops, e.1 ≠ ""))) := by
  refine ⟨?_, validateTables_eq_keyword_iff, validateTables_eq_operator_iff, fun hok cs => ?_⟩
  · rw [validateTables_eq_ok_iff]
    exact ⟨fun h => ⟨h.words, h.apart⟩, fun h => ⟨h.1, h.2⟩⟩
  · have hfit := validateTables_eq_ok_iff.mp hok
    refine ⟨fun e he hne => hfit.takeWord_of_operator he hne, ?_, ?_, ?_⟩
    · rintro e he rest rfl hrest
      exact hfit.takeWord_of_keyword he hrest
    · have hfit' : TablesFit (spelledOut ops) kws := hfit.mono fun _ he => (List.mem_filter.mp he).1
      refine hfit'.operatorOf_or_wordOf fun _ e he => ?_
      simpa using (List.mem_filter.mp he).2
    · exact ⟨fun horder hstarts => hfit.ne_empty_of_order hstarts horder,
        hfit.operatorOf_or_wordOf⟩

/-- A keyword that an operator follows, and the same keyword as the start of a longer word. -/
theorem validateTables_guarantees_loop :
    let ops : List Entry := [("<", .plus), ("<-", .minus)]
    let kws : List Entry := [("loop", .ifWord), ("while_", .printWord)]
    validateTables ops kws = .ok () ∧
      takeWord "loop<-x".toList = some ("loop".toList, "<-x".toList) ∧
      takeWord "<-loop".toList = none := by
  intro ops kws
  have hok : validateTables ops kws = .ok () := rfl
  have hstop : ∀ c ∈ "<-x".toList.head?, isWordChar c = false := by
    rintro c ⟨⟩
    rfl
  obtain ⟨-, -, -, hall⟩ := validateTables_guarantees ops kws
  refine ⟨hok, (hall hok "loop<-x".toList).2.1 ("loop", .ifWord) (by decide) "<-x".toList
    (by decide) hstop, ?_⟩
  exact (hall hok "<-loop".toList).1 ("<-", .minus) (by decide) (by decide) (by decide)

end LoopFree
