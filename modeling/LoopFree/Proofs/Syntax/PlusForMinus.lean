/-
The first release's reading of `-`, on texts.

A text is changed at the places of its tokens `-`, and nowhere else; a `-` in an exponent is no
token and stays.  The changed text is cut into the same tokens at the same places, with `+` for
`-`.  For where a token of the text ended before, it ends still: behind it stands what stood
there, or a `+`, which goes on no token.  The grammar treats the two tokens alike, so the changed
text is a program where the text is one, and with `+` for `-` in its tree.

Which places are changed is asked of the tokens of the whole text.  The induction walks down the
text and has to know that only the tokens still ahead count: those passed stand before the
place, since no two different heads of a text end at one place (`Position.after_append_ne`).
-/
import LoopFree.Proofs.Syntax.Acceptance
import LoopFree.Proofs.Run.PlusForMinus
import LoopFree.Proofs.Token.Cutting

namespace LoopFree

/-! ### Places along a text

The characters to change are given by the places of tokens.  A `-` in an exponent is a character
too, so it must be certain that no other character has the place of a token `-`.
-/

/-- Further along a text is another place. -/
theorem Position.after_append_ne (before : List Char) {run : List Char} (h : run ≠ []) :
    after (before ++ run) ≠ after before := by
  intro heq
  by_cases hline : '\n' ∈ run
  · have hcount := List.count_pos_iff.mpr hline
    have hlines := congrArg Position.line heq
    simp only [after, List.count_append] at hlines
    omega
  · have hcolumns := congrArg Position.column heq
    rw [after_append before hline] at hcolumns
    have hpos := List.length_pos_iff.mpr h
    simp only [advance] at hcolumns
    omega

/-- One character further along, the place depends on that character alone. -/
theorem Position.after_concat_congr {before before' : List Char}
    (h : after before' = after before) (c : Char) :
    after (before' ++ [c]) = after (before ++ [c]) := by
  by_cases hc : c = '\n'
  · rw [hc, after_newline, after_newline, h]
  · rw [after_concat _ hc, after_concat _ hc, h]

/-- Along a line, the place depends on the number of characters alone. -/
theorem Position.after_append_congr {before before' run run' : List Char}
    (h : after before' = after before) (hrun : '\n' ∉ run) (hrun' : '\n' ∉ run')
    (hlength : run'.length = run.length) : after (before' ++ run') = after (before ++ run) := by
  rw [after_append _ hrun, after_append _ hrun', h, hlength]

/-- The tokens of a text stand in it. -/
theorem Cuts.position_mem {before text : List Char} {ls : List Lexeme} {cut : Option LexError}
    (h : Cuts before text ls cut) : ∀ l ∈ ls, ∃ x, l.position = .after (before ++ x) := by
  induction h with
  | ended | fails => exact List.forall_mem_nil _
  | @blank b before text ls cut hb h ih =>
      intro l hl
      obtain ⟨x, hx⟩ := ih l hl
      exact ⟨b :: x, by rw [hx, ← List.append_cons]⟩
  | @lexeme t before text left ls cut hscan h ih =>
      refine List.forall_mem_cons.mpr ⟨⟨[], by rw [List.append_nil]⟩, fun l hl => ?_⟩
      obtain ⟨x, hx⟩ := ih l hl
      exact ⟨t.text.toList ++ x, by rw [hx, List.append_assoc]⟩

/-- No token of what stands behind a piece of the text stands at the start of the piece. -/
theorem Cuts.position_ne {before run text : List Char} {ls : List Lexeme} {cut : Option LexError}
    (h : Cuts (before ++ run) text ls cut) (hrun : run ≠ []) :
    ∀ l ∈ ls, l.position ≠ .after before := by
  intro l hl
  obtain ⟨x, hx⟩ := h.position_mem l hl
  rw [hx, List.append_assoc]
  exact Position.after_append_ne before fun hnil => hrun (List.append_eq_nil_iff.mp hnil).1

/-! ### Tokens and texts with `+` for `-`

Character by character the two texts are of the same shape, so all places are the same.  What
needs an argument is that the tokens are, for the new character must not go on the token in front
of it.
-/

/-- `+` in place of `-`. -/
def Token.plusForMinus : Token → Token
  | minus => plus
  | t => t

/-- The token, where it stands, with `+` in place of `-`. -/
def Lexeme.plusForMinus (l : Lexeme) : Lexeme :=
  { l with token := l.token.plusForMinus }

/-- The text, which stands after `before`, with `+` where one of these tokens is a `-`. -/
def plusAt (ls : List Lexeme) (before : List Char) : List Char → List Char
  | [] => []
  | c :: text =>
      (if ⟨.minus, .after before⟩ ∈ ls then '+' else c) :: plusAt ls (before ++ [c]) text

/-- The text with `+` in place of every token `-`. -/
def plusForMinusText (s : String) : String :=
  String.ofList (plusAt (Source.ofString s).feed.lexemes [] s.toList)

/-- Where no token is a `-`, the text stays. -/
theorem plusAt_append {all : List Lexeme} {run : List Char} : ∀ before : List Char,
    (∀ x w, run = x ++ w → w ≠ [] → ⟨.minus, .after (before ++ x)⟩ ∉ all) → ∀ text : List Char,
      plusAt all before (run ++ text) = run ++ plusAt all (before ++ run) text := by
  induction run with
  | nil =>
      intro before _ text
      rw [List.append_nil]
      rfl
  | cons c run ih =>
      intro before hnone text
      have hhere : ⟨.minus, .after before⟩ ∉ all := by
        have := hnone [] (c :: run) rfl (List.cons_ne_nil c run)
        rwa [List.append_nil] at this
      have hrest := ih (before ++ [c]) (fun x w hw hne => by
        rw [← List.append_cons]
        exact hnone (c :: x) w (by rw [hw, List.cons_append]) hne) text
      rw [List.cons_append, plusAt, if_neg hhere, hrest, ← List.append_cons, List.cons_append]

/-- A changed text starts as the text does, or with `+`. -/
theorem plusAt_head? (all : List Lexeme) (before text : List Char) :
    ∀ c ∈ (plusAt all before text).head?, c = '+' ∨ c ∈ text.head? := by
  intro c hc
  cases text with
  | nil => cases hc
  | cons d text =>
      rw [plusAt, List.head?_cons, Option.mem_some_iff] at hc
      split at hc
      · exact Or.inl hc.symm
      · exact Or.inr (by rw [hc]; rfl)

/-- A `+` goes on no token. -/
theorem Token.endsBefore_plus (t : Token) : t.EndsBefore '+' := by
  have hplus : EndsToken ['+'] := .cons (by decide) (by decide)
  exact hplus.endsBefore t '+' rfl

/-- **A changed text is cut into the changed tokens.** -/
theorem Cuts.plusForMinus {all : List Lexeme} {before before' text : List Char} {ls : List Lexeme}
    (h : Cuts before text ls none) (hplace : Position.after before' = .after before)
    (hall : ∀ x, ⟨.minus, .after (before ++ x)⟩ ∈ all ↔ ⟨.minus, .after (before ++ x)⟩ ∈ ls) :
    Cuts before' (plusAt all before text) (ls.map Lexeme.plusForMinus) none := by
  generalize hcut : (none : Option LexError) = cut at h
  induction h generalizing before' with
  | ended => exact .ended
  | @blank b before text ls _ hb h ih =>
      have hhere : ⟨.minus, .after before⟩ ∉ all := by
        have := hall []
        rw [List.append_nil] at this
        exact fun hmem => h.position_ne (List.cons_ne_nil b []) _ (this.mp hmem) rfl
      rw [plusAt, if_neg hhere]
      refine .blank hb (ih (Position.after_concat_congr hplace b) (fun x => ?_) hcut)
      rw [← List.append_cons]
      exact hall (b :: x)
  | @lexeme t before text left ls _ hscan h ih =>
      obtain ⟨rfl, hne⟩ := scan_append hscan
      have ht := wellFormed_of_scan hscan
      -- Ahead of the token only the tokens behind it count.
      have hleft : ∀ x, ⟨.minus, .after (before ++ t.text.toList ++ x)⟩ ∈ all ↔
          ⟨.minus, .after (before ++ t.text.toList ++ x)⟩ ∈ ls := by
        intro x
        rw [List.append_assoc, hall, List.mem_cons]
        refine or_iff_right fun heq => ?_
        exact Position.after_append_ne before
          (fun hnil => hne (List.append_eq_nil_iff.mp hnil).1) (congrArg Lexeme.position heq)
      have hplaces : ∀ run : List Char, '\n' ∉ run → run.length = t.text.toList.length →
          Position.after (before' ++ run) = .after (before ++ t.text.toList) :=
        fun run => Position.after_append_congr hplace ht.newline_not_mem
      rw [List.map_cons, Lexeme.plusForMinus, ← hplace]
      by_cases hminus : t = .minus
      · subst hminus
        have hhere : ⟨.minus, .after before⟩ ∈ all := by
          have := hall []
          rw [List.append_nil] at this
          exact this.mpr List.mem_cons_self
        show Cuts before' (plusAt all before ('-' :: left)) _ _
        rw [plusAt, if_pos hhere]
        exact .lexeme (t := .plus) (scan_operator ("+", .plus) (by decide) _)
          (ih (hplaces ['+'] (by decide) rfl) hleft hcut)
      · -- Within the token stands no `-` that is a token.
        have hnone : ∀ x w, t.text.toList = x ++ w → w ≠ [] →
            ⟨.minus, .after (before ++ x)⟩ ∉ all := by
          intro x w hw hne hmem
          rcases List.mem_cons.mp ((hall x).mp hmem) with heq | hmem
          · exact hminus (congrArg Lexeme.token heq).symm
          · rw [hw, ← List.append_assoc] at h
            exact h.position_ne hne _ hmem rfl
        have hsame : t.plusForMinus = t := by
          cases t <;> first | rfl | exact absurd rfl hminus
        rw [plusAt_append before hnone, hsame]
        refine .lexeme (ht.scan_of_endsBefore fun c hc => ?_)
          (ih (hplaces t.text.toList ht.newline_not_mem rfl) hleft hcut)
        rcases plusAt_head? all _ left c hc with rfl | hc
        · exact t.endsBefore_plus
        · exact endsBefore_of_scan hscan c hc
  | fails => cases hcut

/-- The changed text of a source that can be read gives the changed tokens. -/
theorem Source.feed_plusForMinus {s : String} (h : (ofString s).feed.cut = none) :
    (ofString (plusForMinusText s)).feed.lexemes
        = (ofString s).feed.lexemes.map Lexeme.plusForMinus ∧
      (ofString (plusForMinusText s)).feed.cut = none := by
  have hcuts := cuts s
  rw [h] at hcuts
  refine (cuts_iff _ _ _).mp ?_
  rw [plusForMinusText, String.toList_ofList]
  exact hcuts.plusForMinus rfl fun x => Iff.rfl

/-! ### The grammar -/

private theorem ArithOp.token_plusForMinus (op : ArithOp) :
    op.token.plusForMinus = op.plusForMinus.token := by
  cases op <;> rfl

private theorem LogicOp.token_plusForMinus (op : LogicOp) : op.token.plusForMinus = op.token := by
  cases op <;> rfl

private theorem CompareOp.token_plusForMinus (op : CompareOp) :
    op.token.plusForMinus = op.token := by
  cases op <;> rfl

namespace Grammar

/-- **What derives a tree derives, with `+` for `-`, the tree with `+` for `-`.** -/
theorem Derives.plusForMinus {c : Category} {d : Nat} {ts : List Token} {e : Expr}
    (h : Derives c d ts e) : Derives c d (ts.map Token.plusForMinus) e.plusForMinus := by
  induction h with
  | name x => exact .name x
  | integer s => exact .integer s
  | float s => exact .float s
  | trueWord => exact .trueWord
  | falseWord => exact .falseWord
  | sumGroup h ih =>
      rw [List.map_cons, List.map_append]
      exact .sumGroup ih
  | conditionGroup h ih =>
      rw [List.map_cons, List.map_append]
      exact .conditionGroup ih
  | factor h ih => exact .factor ih
  | term h ih => exact .term ih
  | value h ih => exact .value ih
  | alone h ih => exact .alone ih
  | tested h ih => exact .tested ih
  | @scaled op d d' ts ts' l r hop hl hr ihl ihr =>
      rw [List.map_append, List.map_cons, ArithOp.token_plusForMinus]
      exact .scaled (by rcases hop with rfl | rfl <;> simp [ArithOp.plusForMinus]) ihl ihr
  | @added op d d' ts ts' l r hop hl hr ihl ihr =>
      rw [List.map_append, List.map_cons, ArithOp.token_plusForMinus]
      exact .added (by rcases hop with rfl | rfl <;> simp [ArithOp.plusForMinus]) ihl ihr
  | valuesCompared op hl hr ihl ihr =>
      rw [List.map_append, List.map_cons, CompareOp.token_plusForMinus]
      exact .valuesCompared op ihl ihr
  | truthsCompared op hl hr ihl ihr =>
      rw [List.map_append, List.map_cons, CompareOp.token_plusForMinus]
      exact .truthsCompared op ihl ihr
  | connected op hl hr ihl ihr =>
      rw [List.map_append, List.map_cons, LogicOp.token_plusForMinus]
      exact .connected op ihl ihr

mutual

theorem DerivesStmt.plusForMinus {d : Nat} {ts : List Token} {s : Stmt} :
    DerivesStmt d ts s → DerivesStmt d (ts.map Token.plusForMinus) s.plusForMinus
  | .empty => .empty
  | .assign x h => by
      rw [List.map_cons, List.map_cons, List.map_append]
      exact .assign x h.plusForMinus
  | .print h => by
      rw [List.map_cons, List.map_append]
      exact .print h.plusForMinus
  | .ifThen hc hbody => by
      rw [List.map_cons, List.map_cons, List.map_append, List.map_cons]
      exact .ifThen hc.plusForMinus hbody.plusForMinus
  | .block h => by
      rw [List.map_cons, List.map_append]
      exact .block h.plusForMinus

theorem DerivesStmts.plusForMinus {d : Nat} {ts : List Token} {ss : List Stmt} :
    DerivesStmts d ts ss → DerivesStmts d (ts.map Token.plusForMinus) (Stmt.plusForMinusAll ss)
  | .nil => .nil
  | .cons h hrest => by
      rw [List.map_append]
      exact .cons h.plusForMinus hrest.plusForMinus

end

end Grammar

/-! ### Sources -/

namespace Source

/-- The changed text of a program is the changed program. -/
theorem parse_plusForMinus {s : String} {p : Program} (h : (ofString s).parse = .ok p) :
    (ofString (plusForMinusText s)).parse = .ok p.plusForMinus := by
  obtain ⟨hcut, d, hd, hder, hrange⟩ := Parser.program_reads h
  obtain ⟨hlexemes, hcut'⟩ := feed_plusForMinus hcut
  refine parse_of_denotes ⟨_, d, (feed_eq_iff _ _).mp ⟨hcut', hlexemes⟩, ?_, ?_, hd⟩
  · have hchanged := hder.plusForMinus
    rw [List.map_map] at hchanged ⊢
    exact hchanged
  · intro l hl
    obtain ⟨k, hk, rfl⟩ := List.mem_map.mp hl
    have hin := hrange k hk
    obtain ⟨t, p⟩ := k
    cases t <;> exact hin

/-- **The first release's `-` is `+`, in the text and in the tree.**  A source that parses, with
`+` in place of every token `-`, parses to the tree with `+` in place of every `-`; and a program
in the old mode does on any machine what the program with `+` does where `-` subtracts: it leaves
the same machine and fails with the same error, if it fails. -/
theorem legacySum_plusForMinus :
    (∀ (s : String) (p : Program), (ofString s).parse = .ok p →
      (ofString (plusForMinusText s)).parse = .ok p.plusForMinus) ∧
    ∀ (p : Program) (m : Machine),
      p.execute ⟨.legacySum⟩ m = p.plusForMinus.execute ⟨.difference⟩ m :=
  ⟨fun _ _ h => parse_plusForMinus h, fun p m => (p.execute_plusForMinus ⟨.difference⟩ m).symm⟩

/-- A source with two tokens `-`, the second in a block, and a `-` in an exponent.  Where `-`
subtracts it prints something else. -/
theorem legacySum_plusForMinus_exponent :
    let old := ofString "x := 5 - 3e-2;\n\x7b print x-1; \x7d"
    let new := ofString "x := 5 + 3e-2;\n\x7b print x+1; \x7d"
    let start : Machine := ⟨.empty, .unlimited⟩
    plusForMinusText "x := 5 - 3e-2;\n\x7b print x-1; \x7d"
        = "x := 5 + 3e-2;\n\x7b print x+1; \x7d" ∧
      ∃ p, old.parse = .ok p ∧ new.parse = .ok p.plusForMinus ∧
        (p.plusForMinus.execute ⟨.difference⟩ start).machine.sink.written = "6.03\n".toUTF8 ∧
        (p.execute ⟨.legacySum⟩ start).machine.sink.written = "6.03\n".toUTF8 ∧
        (p.execute ⟨.difference⟩ start).machine.sink.written = "3.9699999999999998\n".toUTF8 := by
  intro old new start
  have htext : plusForMinusText "x := 5 - 3e-2;\n\x7b print x-1; \x7d"
      = "x := 5 + 3e-2;\n\x7b print x+1; \x7d" := by
    decide +kernel
  have hsum : (new.run ⟨.difference⟩ .unlimited).1.written = "6.03\n".toUTF8 := by
    decide +kernel
  have hdifference : (old.run ⟨.difference⟩ .unlimited).1.written
      = "3.9699999999999998\n".toUTF8 := by
    decide +kernel
  obtain ⟨p, hp⟩ := exists_of_isOk (s := old) (by decide +kernel)
  obtain ⟨hparse, hexecute⟩ := legacySum_plusForMinus
  have hnew : new.parse = .ok p.plusForMinus := by
    have hchanged := hparse _ p hp
    rwa [htext] at hchanged
  rw [run, hnew] at hsum
  rw [run, hp] at hdifference
  refine ⟨htext, p, hp, hnew, hsum, ?_, hdifference⟩
  rw [hexecute p start]
  exact hsum

end Source

end LoopFree
