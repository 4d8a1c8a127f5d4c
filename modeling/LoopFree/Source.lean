/-
Sources: texts and byte strings, cut into lines.

A line keeps the line feed that ends it; the last line may have none, and an empty
source has no line.  The lines of a byte string are decoded one by one, so bytes that
are no text spoil only the line they stand in.
-/

namespace LoopFree

/-- Why a line could not be read. -/
inductive ReadFailure
  /-- The bytes of the line are not the encoding of a text. -/
  | invalidText
  /-- The source is a directory, which has no lines. -/
  | isDirectory
deriving Repr, DecidableEq

namespace ReadFailure

/-- The failure in words. -/
def message : ReadFailure → String
  | invalidText => "stream did not contain valid UTF-8"
  | isDirectory => "Is a directory (os error 21)"

end ReadFailure

/-- A line of a source. -/
inductive Line
  | text (chars : List Char)
  | unreadable (why : ReadFailure)
deriving Repr, DecidableEq

/-- Splits a list after every element that ends a line. -/
def splitLines {α : Type} (ends : α → Bool) : List α → List (List α)
  | [] => []
  | a :: rest =>
      if ends a then [a] :: splitLines ends rest
      else
        match splitLines ends rest with
        | [] => [[a]]
        | line :: lines => (a :: line) :: lines

/-- Splitting loses nothing. -/
theorem flatten_splitLines {α : Type} (ends : α → Bool) (as : List α) :
    (splitLines ends as).flatten = as := by
  induction as with
  | nil => rfl
  | cons a rest ih =>
      rw [splitLines]
      split
      · simp [ih]
      · split
        · next h => simp [h] at ih; simp [← ih]
        · next line lines h => simp [h] at ih; simp [← ih]

/-- What a program is read from. -/
structure Source where
  lines : List Line
deriving Repr, DecidableEq

namespace Source

/-- The source that a text is. -/
def ofText (chars : List Char) : Source :=
  ⟨(splitLines (· == '\n') chars).map .text⟩

/-- The source that a string is. -/
def ofString (s : String) : Source :=
  ofText s.toList

/-- Decodes the bytes of one line. -/
def decodeLine (bytes : List UInt8) : Line :=
  match String.fromUTF8? ⟨bytes.toArray⟩ with
  | some s => .text s.toList
  | none => .unreadable .invalidText

/-- The source that a byte string is. -/
def ofBytes (bytes : List UInt8) : Source :=
  ⟨(splitLines (· == 10) bytes).map decodeLine⟩

/-- A directory opened as a source: it fails when it is read. -/
def directory : Source :=
  ⟨[.unreadable .isDirectory]⟩

end Source

end LoopFree
