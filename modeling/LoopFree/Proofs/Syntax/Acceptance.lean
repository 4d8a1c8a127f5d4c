/-
Which sources are programs, and of which tree.

`Source.Denotes` says it with the grammar alone: all of the source is cut into tokens,
the tokens derive the program, its integers are in range and nothing nests too deep.
`parse_eq_ok_iff` says that this is what `parse` decides.  A source denotes one program
at most, though nothing in the grammar says so by itself: it is the parser that finds
every tree the grammar allows, and it answers with one.
-/
import LoopFree.Proofs.Token.Feed
import LoopFree.Proofs.Syntax.Completeness
import LoopFree.Proofs.Syntax.Soundness

namespace LoopFree

open Grammar

namespace Source

/-- By the grammar the source is this program, and it keeps the limits on integers and on
nesting. -/
def Denotes (s : Source) (p : Program) : Prop :=
  ∃ ls d, s.Tokenizes ls ∧ DerivesStmts d (ls.map Lexeme.token) p ∧
    (∀ l ∈ ls, l.token.InRange) ∧ d ≤ maxNesting

/-- What is parsed is what its tokens are parsed to. -/
theorem parse_of_tokenizes {s : Source} {ls : List Lexeme} (h : s.Tokenizes ls) :
    s.parse = Parser.program none ls := by
  obtain ⟨hcut, hls⟩ := (s.feed_eq_iff ls).mpr h
  rw [parse, hcut, hls]

/-- A source that is accepted has a tree. -/
theorem exists_of_isOk {s : Source} (h : s.parse.isOk = true) : ∃ p, s.parse = .ok p := by
  cases hp : s.parse with
  | error why =>
      rw [hp] at h
      cases h
  | ok p => exact ⟨p, rfl⟩

/-- Why a source is refused, if it is. -/
def refusal? (s : Source) : Option ParseError :=
  match s.parse with
  | .error why => some why
  | .ok _ => none

theorem parse_of_refusal {s : Source} {why : ParseError} (h : s.refusal? = some why) :
    s.parse = .error why := by
  unfold refusal? at h
  cases hparse : s.parse with
  | error why' =>
      rw [hparse] at h
      exact congrArg Except.error (Option.some.inj h)
  | ok p =>
      rw [hparse] at h
      cases h

theorem denotes_of_parse {s : Source} {p : Program} (h : s.parse = .ok p) : s.Denotes p := by
  obtain ⟨hcut, d, hd, hder, hrange⟩ := Parser.program_reads h
  exact ⟨s.feed.lexemes, d, (s.feed_eq_iff _).mp ⟨hcut, rfl⟩, hder, hrange, hd⟩

theorem parse_of_denotes {s : Source} {p : Program} (h : s.Denotes p) : s.parse = .ok p := by
  obtain ⟨ls, d, htokens, hder, hrange, hd⟩ := h
  rw [parse_of_tokenizes htokens]
  exact Parser.program_of_derives hder ⟨hd, rfl, hrange⟩

/-- **A source is parsed as a program exactly when it denotes it**, and it denotes no
other. -/
theorem parse_eq_ok_iff (s : Source) (p : Program) :
    (s.parse = .ok p ↔
      ∃ ls d, s.Tokenizes ls ∧ DerivesStmts d (ls.map Lexeme.token) p ∧
        (∀ l ∈ ls, l.token.InRange) ∧ d ≤ maxNesting) ∧
    ∀ q, s.Denotes p → s.Denotes q → q = p := by
  refine ⟨⟨denotes_of_parse, parse_of_denotes⟩, ?_⟩
  intro q hp hq
  have hok := (parse_of_denotes hq).symm.trans (parse_of_denotes hp)
  exact Except.ok.inj hok

/-- An assignment, and a block in which multiplication binds tighter than addition. -/
theorem parse_eq_ok_iff_block :
    let s := ofString "x := 1;\n\x7b print x + 2 * 3; \x7d"
    let p : Program := [.assign "x" (.int 1),
      .block [.print (.arith .add (.var "x") (.arith .mul (.int 2) (.int 3)))]]
    s.parse = .ok p ∧
      (∃ ls d, s.Tokenizes ls ∧ DerivesStmts d (ls.map Lexeme.token) p ∧
        (∀ l ∈ ls, l.token.InRange) ∧ d ≤ maxNesting) ∧
      ∀ q, s.Denotes q → q = p := by
  intro s p
  have hfeed : s.feed.cut = none ∧ s.feed.lexemes =
      [⟨.identifier "x", ⟨1, 1⟩⟩, ⟨.assign, ⟨1, 3⟩⟩, ⟨.integer "1", ⟨1, 6⟩⟩, ⟨.semicolon, ⟨1, 7⟩⟩,
        ⟨.leftBrace, ⟨2, 1⟩⟩, ⟨.printWord, ⟨2, 3⟩⟩, ⟨.identifier "x", ⟨2, 9⟩⟩, ⟨.plus, ⟨2, 11⟩⟩,
        ⟨.integer "2", ⟨2, 13⟩⟩, ⟨.star, ⟨2, 15⟩⟩, ⟨.integer "3", ⟨2, 17⟩⟩, ⟨.semicolon, ⟨2, 18⟩⟩,
        ⟨.rightBrace, ⟨2, 20⟩⟩] := by
    decide +kernel
  have hparse : s.parse = .ok p := by
    rw [parse_of_tokenizes ((s.feed_eq_iff _).mp hfeed)]
    rfl
  obtain ⟨hiff, hunique⟩ := parse_eq_ok_iff s p
  have hdenotes := hiff.mp hparse
  exact ⟨hparse, hdenotes, fun q => hunique q hdenotes⟩

end Source

end LoopFree
