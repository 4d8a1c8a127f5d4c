/-
The tokens of printed trees.

`Expr.tokens` and its likes say which tokens the text of a tree is cut into.  They hold of
more trees than can be read back: a negative literal is a minus and a literal.  It is
enough that every name is a word, which may even be a keyword, and that every float is
written with digits.

`Spells` is about a text that ends where a word or a number might go on, and `Closes`
about one that ends with a sign of its own.  Texts are put together from the front, so
what both say is about the text with anything behind it.
-/
import LoopFree.Proofs.Syntax.Form
import LoopFree.Proofs.Token.Reading

namespace LoopFree

/-! ### The tokens of a tree

The tokens are written down beside the text and not read off it.  So the text can be shown to be
cut into them and the grammar to derive the tree from them, one without the other.
-/

/-- The tokens of an integer. -/
def intTokens (n : Int64) : List Token :=
  let digits := Token.integer (Nat.repr n.toInt.natAbs)
  if n.toInt < 0 then [.minus, digits] else [digits]

/-- The tokens of a float. -/
def floatTokens (x : Float) : List Token :=
  if Binary64.isNegative x then
    [.minus, .float (String.ofList (literalLayout.ofIndex (Binary64.index x)))]
  else
    [.float (floatLiteralText x)]

/-- The token of a boolean. -/
def boolToken (b : Bool) : Token :=
  if b then .trueWord else .falseWord

/-- The tokens of an expression. -/
def Expr.tokens : Expr → List Token
  | arith op l r => .leftParen :: ((l.tokens ++ op.token :: r.tokens) ++ [.rightParen])
  | logic op l r => .leftParen :: ((l.tokens ++ op.token :: r.tokens) ++ [.rightParen])
  | compare op l r => .leftParen :: ((l.tokens ++ op.token :: r.tokens) ++ [.rightParen])
  | int n => intTokens n
  | float x => floatTokens x
  | bool b => [boolToken b]
  | var x => [.ofWord x]

/-- The tokens of what a `print` shows. -/
def Expr.shownTokens : Expr → List Token
  | compare op l r => l.tokens ++ op.token :: r.tokens
  | e => e.tokens

mutual

/-- The tokens of a statement. -/
def Stmt.tokens : Stmt → List Token
  | .block body => .leftBrace :: (Stmt.allTokens body ++ [.rightBrace])
  | .empty => [.semicolon]
  | .assign x e => .ofWord x :: .assign :: (e.tokens ++ [.semicolon])
  | .print e => .printWord :: (e.shownTokens ++ [.semicolon])
  | .ifThen c body => .ifWord :: .leftParen :: (c.tokens ++ .rightParen :: body.tokens)

/-- The tokens of statements one after another. -/
def Stmt.allTokens : List Stmt → List Token
  | [] => []
  | s :: rest => s.tokens ++ Stmt.allTokens rest

end

/-! ### Trees that are written with names and digits

Nobody keeps a tree from having a variable with a blank in its name, or a float that is no number.
It is printed all the same, but its text says something else.
-/

/-- The float is written with digits, perhaps after a minus. -/
def Binary64.IsWritten (x : Float) : Prop :=
  index x < infinityIndex ∨ IsUnsigned x

/-- Names are names, and floats are written with digits. -/
def Expr.Spelled : Expr → Prop
  | arith _ l r => l.Spelled ∧ r.Spelled
  | logic _ l r => l.Spelled ∧ r.Spelled
  | compare _ l r => l.Spelled ∧ r.Spelled
  | float x => Binary64.IsWritten x
  | var x => IsName x
  | _ => True

mutual

/-- Names are names, and floats are written with digits. -/
def Stmt.Spelled : Stmt → Prop
  | .block body => Stmt.AllSpelled body
  | .empty => True
  | .assign x e => IsName x ∧ e.Spelled
  | .print e => e.Spelled
  | .ifThen c body => c.Spelled ∧ body.Spelled

/-- Names are names, and floats are written with digits. -/
def Stmt.AllSpelled : List Stmt → Prop
  | [] => True
  | s :: rest => s.Spelled ∧ Stmt.AllSpelled rest

end

/-! ### Texts and their tokens

A text is put together from pieces, and where two of them meet the first must end.  A word or a
number ends only if the next piece does not go on it, and `Spells` asks for that; an operator ends
by itself, so a text that ends with one asks for nothing.
-/

/-- The text is cut into the tokens, where what follows does not go on a word or a number. -/
def Spells (text : String) (ts : List Token) : Prop :=
  ∀ ⦃cs : List Char⦄ ⦃us : List Token⦄, EndsToken cs → Lexes cs us →
    Lexes (text.toList ++ cs) (ts ++ us)

/-- The text is cut into the tokens, whatever follows. -/
def Closes (text : String) (ts : List Token) : Prop :=
  ∀ ⦃cs : List Char⦄ ⦃us : List Token⦄, Lexes cs us → Lexes (text.toList ++ cs) (ts ++ us)

private theorem EndsToken.blank (cs : List Char) : EndsToken (' ' :: cs) :=
  .cons (by decide +kernel) (by decide)

private theorem isWord_of_mem_keywords : ∀ e ∈ keywords, isWord e.1.toList = true := by
  decide +kernel

private theorem ofWord_of_mem_keywords : ∀ e ∈ keywords, Token.ofWord e.1 = e.2 := by
  decide

private theorem EndsToken.operator {e : Entry} (he : e ∈ operators) (cs : List Char) :
    EndsToken (e.1.toList ++ cs) := by
  refine EndsToken.of_head? (endsToken_of_mem_operators he) ?_
  obtain ⟨c, rest, hc⟩ := List.exists_cons_of_ne_nil (text_of_mem_operators e he).2
  rw [hc]
  rfl

private theorem Lexes.space {cs : List Char} {ts : List Token} (h : Lexes cs ts) :
    Lexes (' ' :: cs) ts :=
  h.blank (by decide +kernel) (by decide)

/-- Operands with an operator between them. -/
theorem Spells.between {left right symbol : String} {ts ts' : List Token} {t : Token}
    (ht : (symbol, t) ∈ operators) (hl : Spells left ts) (hr : Spells right ts') :
    Spells (infixText left symbol right) (ts ++ t :: ts') := by
  intro cs us hends hcs
  have hright := (hr hends hcs).space
  have hop := (Lexes.operator ht hright).space
  have hall := hl (.blank _) hop
  simpa [infixText, String.toList_append] using hall

/-- A text with an operator behind it. -/
theorem Spells.closed {text : String} {ts : List Token} {e : Entry} (h : Spells text ts)
    (he : e ∈ operators) : Closes (text ++ e.1) (ts ++ [e.2]) := by
  intro cs us hcs
  have hall := h (.operator he cs) (.operator he hcs)
  simpa [String.toList_append] using hall

/-- An operator and what stands behind it. -/
theorem Closes.opened {text : String} {ts : List Token} {e : Entry} (h : Closes text ts)
    (he : e ∈ operators) : Closes (e.1 ++ text) (e.2 :: ts) := by
  intro cs us hcs
  have hall := Lexes.operator he (h hcs)
  simpa [String.toList_append] using hall

private theorem Closes.spells {text : String} {ts : List Token} (h : Closes text ts) :
    Spells text ts :=
  fun _ _ _ hcs => h hcs

/-- What stands in parentheses. -/
theorem Spells.group {text : String} {ts : List Token} (h : Spells text ts) :
    Closes ("(" ++ text ++ ")") (.leftParen :: (ts ++ [.rightParen])) := by
  have hclosed := (h.closed (e := (")", .rightParen)) (by decide)).opened
    (e := ("(", .leftParen)) (by decide)
  rwa [← String.append_assoc] at hclosed

/-- Operands with an operator between them, in parentheses. -/
theorem Spells.operation {left right symbol : String} {ts ts' : List Token} {t : Token}
    (ht : (symbol, t) ∈ operators) (hl : Spells left ts) (hr : Spells right ts') :
    Spells ("(" ++ infixText left symbol right ++ ")")
      (.leftParen :: ((ts ++ t :: ts') ++ [.rightParen])) :=
  (Spells.between ht hl hr).group.spells

/-- A word with a blank behind it. -/
theorem Lexes.wordBlank {w : String} {cs : List Char} {ts : List Token}
    (hw : isWord w.toList = true) (h : Lexes cs ts) :
    Lexes (w.toList ++ ' ' :: cs) (.ofWord w :: ts) :=
  .word hw (.blank cs) h.space

/-- A keyword with a blank behind it. -/
theorem Lexes.keywordBlank {e : Entry} {cs : List Char} {ts : List Token} (he : e ∈ keywords)
    (h : Lexes cs ts) : Lexes (e.1.toList ++ ' ' :: cs) (e.2 :: ts) := by
  rw [← ofWord_of_mem_keywords e he]
  exact .wordBlank (isWord_of_mem_keywords e he) h

/-! ### Literals and names -/

theorem Spells.word {w : String} (hw : isWord w.toList = true) : Spells w [.ofWord w] :=
  fun _ _ hends hcs => .word hw hends hcs

private theorem Spells.keyword {e : Entry} (he : e ∈ keywords) : Spells e.1 [e.2] := by
  rw [← ofWord_of_mem_keywords e he]
  exact .word (isWord_of_mem_keywords e he)

theorem spells_boolText (b : Bool) : Spells (boolText b) [boolToken b] := by
  cases b with
  | false => exact .keyword (e := ("False", .falseWord)) (by decide)
  | true => exact .keyword (e := ("True", .trueWord)) (by decide)

/-- A minus in front. -/
theorem Spells.minus {text : String} {ts : List Token} (h : Spells text ts) :
    Spells ("-" ++ text) (.minus :: ts) := by
  intro cs us hends hcs
  have hall := Lexes.operator (e := ("-", .minus)) (by decide) (h hends hcs)
  simpa [String.toList_append] using hall

theorem spells_repr (n : Nat) : Spells (Nat.repr n) [.integer (Nat.repr n)] := by
  intro cs us hends hcs
  have hall := Lexes.integer Nat.toDigits_ne_nil (isDigit_of_mem_toDigits (n := n)) hends hcs
  rw [← Nat.toList_repr, String.ofList_toList] at hall
  exact hall

private theorem spells_intText (n : Int64) : Spells (intText n) (intTokens n) := by
  unfold intText intTokens
  simp only
  split
  · exact (spells_repr _).minus
  · exact spells_repr _

theorem Spells.float {cs : List Char} (h : IsFloatText cs) :
    Spells (String.ofList cs) [.float (String.ofList cs)] := by
  intro rest us hends hrest
  rw [String.toList_ofList]
  exact .float h hends hrest

private theorem spells_floatLiteralText {x : Float} (h : Binary64.IsWritten x) :
    Spells (floatLiteralText x) (floatTokens x) := by
  unfold floatTokens
  by_cases hneg : Binary64.isNegative x = true
  · have hlt : Binary64.index x < Binary64.infinityIndex := by
      rcases h with hlt | hpos
      · exact hlt
      · rw [hpos.1] at hneg
        simp at hneg
    have htext := (Layout.ofIndex_reads (f := literalLayout) (Or.inl rfl) hlt).1
    have hminus := (Spells.float htext).minus
    have hsign : floatLiteralText x
        = "-" ++ String.ofList (literalLayout.ofIndex (Binary64.index x)) := by
      rw [← String.toList_inj]
      simp [floatLiteralText, Layout.text, hneg, Nat.le_of_lt hlt]
    rw [if_pos hneg, hsign]
    exact hminus
  · have hpos : Binary64.IsUnsigned x := by
      rcases h with hlt | hpos
      · exact ⟨by simpa using hneg, Nat.le_of_lt hlt⟩
      · exact hpos
    have hfloat := Spells.float (floatLiteralText_reads hpos).1
    rw [String.ofList_toList] at hfloat
    rw [if_neg hneg]
    exact hfloat

/-! ### Trees -/

private theorem ArithOp.mem_operators (op : ArithOp) : (op.symbol, op.token) ∈ operators := by
  cases op <;> decide

private theorem LogicOp.mem_operators (op : LogicOp) : (op.symbol, op.token) ∈ operators := by
  cases op <;> decide

private theorem CompareOp.mem_operators (op : CompareOp) : (op.symbol, op.token) ∈ operators := by
  cases op <;> decide

/-- **The text of an expression is cut into its tokens.** -/
theorem Expr.spells_text {e : Expr} (h : e.Spelled) : Spells e.text e.tokens := by
  induction e with
  | arith op l r ihl ihr | logic op l r ihl ihr | compare op l r ihl ihr =>
      rw [text, tokens]
      exact Spells.operation op.mem_operators (ihl h.1) (ihr h.2)
  | int n => exact spells_intText n
  | float x => exact spells_floatLiteralText h
  | bool b => exact spells_boolText b
  | var x => exact .word h.1

private theorem Expr.spells_printedText {e : Expr} (h : e.Spelled) :
    Spells e.printedText e.shownTokens := by
  cases e with
  | compare op l r =>
      rw [printedText, shownTokens]
      exact Spells.between op.mem_operators (spells_text h.1) (spells_text h.2)
  | _ => exact spells_text h

mutual

/-- **The text of a statement is cut into its tokens.** -/
theorem Stmt.closes_text : ∀ {s : Stmt}, s.Spelled → Closes s.text s.tokens
  | .block body, h => by
      intro cs us hcs
      have hclose := (Lexes.operator (e := ("\x7d", .rightBrace)) (by decide) hcs).space
      have hbody := Stmt.closes_blockText h hclose
      have hall := Lexes.operator (e := ("\x7b", .leftBrace)) (by decide) hbody
      simpa [Stmt.text, Stmt.tokens, String.toList_append] using hall
  | .empty, _ => fun _ _ hcs => .operator (e := (";", .semicolon)) (by decide) hcs
  | .assign x e, h => by
      intro cs us hcs
      have hvalue := ((Expr.spells_text h.2).closed (e := (";", .semicolon)) (by decide)) hcs
      have hassign := Lexes.operator (e := (":=", .assign)) (by decide) hvalue.space
      have hall := Lexes.wordBlank h.1.1 hassign
      simpa [Stmt.text, Stmt.tokens, String.toList_append] using hall
  | .print e, h => by
      intro cs us hcs
      have hvalue := ((Expr.spells_printedText h).closed (e := (";", .semicolon)) (by decide)) hcs
      have hall := Lexes.keywordBlank (e := ("print", .printWord)) (by decide) hvalue
      simpa [Stmt.text, Stmt.tokens, String.toList_append] using hall
  | .ifThen c body, h => by
      intro cs us hcs
      have hbody := (Stmt.closes_text h.2 hcs).space
      have hcondition := (Expr.spells_text h.1).group hbody
      have hall := Lexes.keywordBlank (e := ("if", .ifWord)) (by decide) hcondition
      simpa [Stmt.text, Stmt.tokens, String.toList_append] using hall

/-- The text in a block is cut into the tokens of its statements. -/
theorem Stmt.closes_blockText : ∀ {ss : List Stmt}, Stmt.AllSpelled ss →
    Closes (Stmt.blockText ss) (Stmt.allTokens ss)
  | [], _ => fun _ _ hcs => hcs
  | s :: rest, h => by
      intro cs us hcs
      have hall := (Stmt.closes_text h.1 (Stmt.closes_blockText h.2 hcs)).space
      simpa [Stmt.blockText, Stmt.allTokens, String.toList_append] using hall

end

/-- The lines of a program stand one after another. -/
theorem Program.text_cons (s : Stmt) {rest : List Stmt} (hne : rest ≠ []) :
    Program.text (s :: rest) = s.text ++ "\n" ++ Program.text rest := by
  rw [Program.text, List.map_cons, String.intercalate_cons_of_ne_nil (by simpa using hne)]
  rfl

/-- **The text of a program is cut into its tokens.** -/
theorem Program.lexes_text {p : Program} (h : Stmt.AllSpelled p) :
    Lexes p.text.toList (Stmt.allTokens p) := by
  induction p with
  | nil => exact .nil
  | cons s rest ih =>
      by_cases hne : rest = []
      · subst hne
        have hall := Stmt.closes_text h.1 Lexes.nil
        simpa [Program.text, Stmt.allTokens] using hall
      · rw [Program.text_cons s hne]
        have hall := Stmt.closes_text h.1 (ih h.2).newline
        simpa [Stmt.allTokens, String.toList_append] using hall

end LoopFree
