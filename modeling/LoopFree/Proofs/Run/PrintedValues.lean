/-
Printed values.

The texts of numbers are written by one format and read by another part of the language, the
scanner.  They fit together.  The text of every value is one token, or a minus and one
(`Value.spells_text`), and the token tells the kind of the value; so values of different kinds never
have the same text.

The text of a number without a sign is a literal of its kind, and the literal stands for the number
(`Value.IsUnsigned.derives`).  A program that prints the literal prints that text again.
-/
import LoopFree.Proofs.Binary64.Zero
import LoopFree.Proofs.Run.Steps
import LoopFree.Proofs.Syntax.RoundTrip

namespace LoopFree

open Grammar

/-- A text with nothing behind it. -/
theorem Spells.lexes {text : String} {ts : List Token} (h : Spells text ts) :
    Lexes text.toList ts := by
  have hall : Lexes (text.toList ++ []) (ts ++ []) := h nofun Lexes.nil
  rwa [List.append_nil, List.append_nil] at hall

namespace Value

/-! ### The tokens of texts

The text of a value has to survive being scanned, where nothing is known but its characters.  It
comes out as one token, with a minus in front if the value has a sign, and that token is what the
sections below go by.
-/

/-- The text of the value starts with a minus. -/
def IsSigned : Value → Prop
  | int n => n.toInt < 0
  | float x => Binary64.isNegative x = true ∧ Binary64.index x ≤ Binary64.infinityIndex
  | bool _ => False

instance : DecidablePred IsSigned
  | int n => inferInstanceAs (Decidable (n.toInt < 0))
  | float _ => inferInstanceAs (Decidable (_ ∧ _))
  | bool _ => inferInstanceAs (Decidable False)

/-- The text of the value without a minus. -/
def unsignedText : Value → String
  | int n => Nat.repr n.toInt.natAbs
  | float x => String.ofList (printedLayout.ofIndex (Binary64.index x))
  | bool b => boolText b

/-- The token that this is.  Floats that have no digits are written as words. -/
def token : Value → Token
  | int n => .integer (int n).unsignedText
  | float x =>
      if Binary64.index x < Binary64.infinityIndex then .float (float x).unsignedText
      else .identifier (float x).unsignedText
  | bool b => boolToken b

/-- The tokens of the value's text. -/
def tokens (v : Value) : List Token :=
  if v.IsSigned then [.minus, v.token] else [v.token]

private theorem text_eq (v : Value) :
    v.text = if v.IsSigned then "-" ++ v.unsignedText else v.unsignedText := by
  cases v with
  | int n => rfl
  | float x =>
      have hminus : ∀ cs : List Char, String.ofList ('-' :: cs) = "-" ++ String.ofList cs := by
        intro cs
        rw [← String.toList_inj]
        simp [String.toList_append]
      show printedLayout.text x = _
      rw [Layout.text, hminus]
      rfl
  | bool b => rfl

/-- What stands for a float that has no digits is a word, and no keyword. -/
theorem spells_of_mem_words : ∀ w ∈ [printedLayout.infinity, printedLayout.notANumber],
    Spells w [.identifier w] := by
  have hwords : ∀ w ∈ [printedLayout.infinity, printedLayout.notANumber],
      isWord w.toList = true ∧ Token.ofWord w = .identifier w := by
    decide +kernel
  intro w hw
  obtain ⟨hword, htoken⟩ := hwords w hw
  rw [← htoken]
  exact .word hword

private theorem spells_unsignedText (v : Value) : Spells v.unsignedText [v.token] := by
  cases v with
  | int n => exact spells_repr _
  | float x =>
      rw [token, unsignedText]
      rcases Nat.lt_trichotomy (Binary64.index x) Binary64.infinityIndex with hlt | heq | hgt
      · rw [if_pos hlt]
        exact .float (Layout.ofIndex_reads (Or.inr rfl) hlt).1
      · have htext : printedLayout.ofIndex (Binary64.index x) = printedLayout.infinity.toList := by
          rw [heq]
          rfl
        rw [if_neg (Nat.not_lt.mpr (Nat.le_of_eq heq.symm)), htext, String.ofList_toList]
        exact spells_of_mem_words _ (by decide)
      · have htext : printedLayout.ofIndex (Binary64.index x) = printedLayout.notANumber.toList :=
          if_pos hgt
        rw [if_neg (Nat.not_lt.mpr (Nat.le_of_lt hgt)), htext, String.ofList_toList]
        exact spells_of_mem_words _ (by decide)
  | bool b => exact spells_boolText b

/-- **The text of a value is one token, or a minus and one.** -/
theorem spells_text (v : Value) : Spells v.text v.tokens := by
  rw [text_eq, tokens]
  split
  · exact (spells_unsignedText v).minus
  · exact spells_unsignedText v

/-! ### Kinds -/

/-- The kind of the values that are written with a token. -/
private def kindOfToken : Token → ValueKind
  | .integer _ => .integer
  | .float _ | .identifier _ => .float
  | _ => .boolean

private theorem kindOfToken_token (v : Value) : kindOfToken v.token = v.kind := by
  cases v with
  | int n => rfl
  | float x =>
      rw [token]
      split <;> rfl
  | bool b => cases b <;> rfl

private theorem getLast?_tokens (v : Value) : v.tokens.getLast? = some v.token := by
  unfold tokens
  split <;> rfl

/-- **The text of a value tells its kind.** -/
theorem kind_eq_of_text_eq {v w : Value} (h : v.text = w.text) : v.kind = w.kind := by
  obtain ⟨ls, hls, hv⟩ := (spells_text v).lexes.tokenizes
  obtain ⟨ls', hls', hw⟩ := (spells_text w).lexes.tokenizes
  rw [h] at hls
  have htokens : v.tokens = w.tokens := by rw [← hv, ← hw, hls.unique hls']
  have htoken : v.token = w.token := by
    apply Option.some.inj
    rw [← getLast?_tokens, ← getLast?_tokens, htokens]
  rw [← kindOfToken_token v, ← kindOfToken_token w, htoken]

/-! ### Numbers without a sign

Only these have literals.  So only their texts can be put into a program as they are, and the
program prints them again.
-/

/-- The value is an integer from zero up, or a finite float whose sign bit is clear. -/
def IsUnsigned : Value → Prop
  | int n => 0 ≤ n.toInt
  | float x => Binary64.isNegative x = false ∧ Binary64.index x < Binary64.infinityIndex
  | bool _ => False

instance : DecidablePred IsUnsigned
  | int n => inferInstanceAs (Decidable (0 ≤ n.toInt))
  | float _ => inferInstanceAs (Decidable (_ ∧ _))
  | bool _ => inferInstanceAs (Decidable False)

/-- The literal that stands for the value. -/
def literal : Value → Expr
  | int n => .int n
  | float x => .float x
  | bool b => .bool b

private theorem eval_literal (config : Config) (env : Environment) (v : Value) :
    v.literal.eval config env = .ok v := by
  cases v <;> rfl

section Unsigned

variable {v : Value} (h : v.IsUnsigned)
include h

private theorem IsUnsigned.not_isSigned : ¬ v.IsSigned := by
  cases v with
  | int n => exact Int.not_lt.mpr h
  | float x => exact fun hsigned => Bool.false_ne_true (h.1.symm.trans hsigned.1)
  | bool b => exact id

private theorem IsUnsigned.tokens_eq : v.tokens = [v.token] :=
  if_neg h.not_isSigned

/-- **The token of the number derives its literal.** -/
theorem IsUnsigned.derives : Derives .operand 0 [v.token] v.literal := by
  cases v with
  | int n => exact derives_int h
  | float x =>
      have hread : floatOfLiteral (float x).unsignedText = x := by
        rw [unsignedText, floatOfLiteral, String.toList_ofList]
        exact Decimal.toFloat_eq ⟨h.1, Nat.le_of_lt h.2⟩
          (Layout.ofIndex_reads (f := printedLayout) (Or.inr rfl) h.2).2
      have hder := Derives.float (float x).unsignedText
      rw [hread] at hder
      rw [token, if_pos h.2]
      exact hder
  | bool b => cases h

private theorem IsUnsigned.inRange : v.token.InRange := by
  cases v with
  | int n => exact inRange_int h
  | float x =>
      rw [token, if_pos h.2]
      exact trivial
  | bool b => cases h

/-- **Its text is read as its literal.** -/
theorem IsUnsigned.parse_print :
    (Source.ofString ("print " ++ v.text ++ ";")).parse = .ok [.print v.literal] := by
  have hspells := spells_text v
  rw [h.tokens_eq] at hspells
  rw [String.append_assoc]
  exact Source.parse_print hspells (.value (.term (.factor h.derives)))
    (List.forall_mem_singleton.mpr h.inRange) (Nat.zero_le _)

/-- **And printed as its text again.** -/
theorem IsUnsigned.run_print (config : Config) {sink : Sink} (hsink : sink.TakesAll) :
    (Source.ofString ("print " ++ v.text ++ ";")).run config sink
      = ({ sink with written := sink.written ++ (v.text ++ "\n").toUTF8 }, none) := by
  have hrun : Stmt.runAll config [.print v.literal] ⟨.empty, sink⟩
      = ⟨⟨.empty, { sink with written := sink.written ++ (v.text ++ "\n").toUTF8 }⟩, none⟩ := by
    rw [Stmt.runAll_singleton, Stmt.run, eval_literal]
    simp only [hsink.write]
    rfl
  have hexecute := Program.execute_of_runAll hrun (hsink.withWritten _).flushes
  rw [Source.run, h.parse_print]
  simp only [hexecute]
  rfl

end Unsigned

/-! ### Numbers with a sign

Among the tokens of a program a minus stands between two operands and nowhere else.  So of a
number with a sign it is the absolute value that reads back.  The least integer has none among the
integers, and is a case of its own.
-/

/-- The text of a negative integer is a minus and the digits of its absolute value. -/
theorem text_of_negative {n : Int64} (h : n.toInt < 0) :
    (int n).text = "-" ++ Nat.repr n.toInt.natAbs :=
  (text_eq (int n)).trans (if_pos h)

/-- Every negative integer but the least has a positive counterpart. -/
theorem toInt_neg_of_negative {n : Int64} (h : n.toInt < 0) (hne : n ≠ Int64.minValue) :
    (-n).toInt = -n.toInt := by
  have hmin : n.toInt ≠ -2 ^ 63 := fun hmin => hne (Int64.toInt.inj (hmin.trans rfl))
  have hle := n.le_toInt
  rw [Int64.toInt_neg]
  exact Int.bmod_eq_of_le (by omega) (by omega)

private theorem text_neg {n : Int64} (h : n.toInt < 0) (hne : n ≠ Int64.minValue) :
    (int n).text = "-" ++ (int (-n)).text := by
  have hneg := toInt_neg_of_negative h hne
  have hpos : ¬ (int (-n)).IsSigned := by
    show ¬ (-n).toInt < 0
    omega
  rw [text_of_negative h, text_eq (int (-n)), if_neg hpos, unsignedText, hneg, Int.natAbs_neg]

/-- The text of a signed float is a minus and the text of its absolute value. -/
theorem text_abs {x : Float} (h : (float x).IsSigned) :
    (float x).text = "-" ++ (float x.abs).text := by
  have habs : ¬ (float x.abs).IsSigned := by
    intro hsigned
    have hsign := hsigned.1
    rw [Binary64.isNegative_abs] at hsign
    cases hsign
  rw [text_eq (float x), text_eq (float x.abs), if_pos h, if_neg habs, unsignedText, unsignedText,
    Binary64.index_abs]

/-- **Printed numbers read back as themselves.**  The text of a number without a sign is one token,
of the number's kind; a program that prints it as a literal is one with the value for its literal,
and prints the text again, whatever `-` means.  A number with a sign is written as a minus and its
absolute value.  And no text is that of values of different kinds. -/
theorem text_reads_back (config : Config) :
    (∀ v : Value, v.IsUnsigned →
      (∃ position, (Source.ofString v.text).Tokenizes [⟨v.token, position⟩]) ∧
      (Source.ofString ("print " ++ v.text ++ ";")).parse = .ok [.print v.literal] ∧
      (∀ env, v.literal.eval config env = .ok v) ∧
      ∀ sink : Sink, sink.TakesAll →
        (Source.ofString ("print " ++ v.text ++ ";")).run config sink
          = ({ sink with written := sink.written ++ (v.text ++ "\n").toUTF8 }, none)) ∧
    (∀ n : Int64, n.toInt < 0 →
      (int n).text = "-" ++ Nat.repr n.toInt.natAbs ∧
      (n ≠ Int64.minValue → (int n).text = "-" ++ (int (-n)).text)) ∧
    (∀ x : Float, (float x).IsSigned → (float x).text = "-" ++ (float x.abs).text) ∧
    ∀ v w : Value, v.kind ≠ w.kind → v.text ≠ w.text := by
  refine ⟨fun v hv => ⟨?_, hv.parse_print, fun env => eval_literal config env v,
    fun sink hsink => hv.run_print config hsink⟩, fun n hn => ⟨text_of_negative hn, text_neg hn⟩,
    fun x hx => text_abs hx, fun v w hkind htext => hkind (kind_eq_of_text_eq htext)⟩
  obtain ⟨ls, hls, htokens⟩ := (spells_text v).lexes.tokenizes
  rw [hv.tokens_eq] at htokens
  obtain ⟨l, rfl, hl⟩ := List.map_eq_singleton_iff.mp htokens
  rw [← hl]
  exact ⟨l.position, hls⟩

/-- Numbers next to the bounds between floats with an exponent and without, and `1` of two kinds. -/
theorem text_reads_back_bounds :
    (float 1e-5).IsUnsigned ∧ (float 1e-5).text = "1e-05" ∧
      ((Source.ofString ("print " ++ "1e-05" ++ ";")).run ⟨.legacySum⟩ .unlimited).2 = none ∧
      (int (-10)).text = "-" ++ (int (- -10)).text ∧
      (float (-1e16)).text = "-1e+16" ∧
      (float (-1e16)).text = "-" ++ (float (-1e16 : Float).abs).text ∧
      (int 1).text ≠ (float 1).text := by
  have hv : (float 1e-5).IsUnsigned := by decide +kernel
  have htext : (float 1e-5).text = "1e-05" := by decide +kernel
  obtain ⟨hunsigned, hints, hfloats, hkinds⟩ := text_reads_back ⟨.legacySum⟩
  have hrun := (hunsigned _ hv).2.2.2 .unlimited ⟨rfl, rfl⟩
  rw [htext] at hrun
  exact ⟨hv, htext, congrArg Prod.snd hrun, (hints (-10) (by decide)).2 (by decide),
    by decide +kernel, hfloats (-1e16) (by decide +kernel), hkinds (.int 1) (.float 1) (by decide)⟩

end Value

end LoopFree
