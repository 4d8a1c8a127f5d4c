/-
Words: names and keywords.

A word starts with a letter or an underscore and goes on with letters, digits and
underscores, of any script.  A character that is numeric in some script starts no word,
so the letter numbers, which are letters too, stand only inside one.
-/
import LoopFree.Text.Alphabetic
import LoopFree.Text.Numeric

namespace LoopFree

/-- The character may stand in a word. -/
def isWordChar (c : Char) : Bool :=
  Text.isAlphabetic c || Text.isNumeric c || c == '_'

/-- The character may start a word. -/
def isWordStart (c : Char) : Bool :=
  isWordChar c && !Text.isNumeric c

/-- The whole text is one word. -/
def isWord : List Char → Bool
  | [] => false
  | c :: rest => isWordStart c && rest.all isWordChar

/-- The word at the head of a text and what follows it, where one starts there. -/
def takeWord : List Char → Option (List Char × List Char)
  | [] => none
  | c :: rest =>
      if isWordStart c then
        some (c :: rest.takeWhile isWordChar, rest.dropWhile isWordChar)
      else
        none

/-- Taking a word splits the text in two. -/
theorem takeWord_append {cs word rest : List Char} (h : takeWord cs = some (word, rest)) :
    word ++ rest = cs := by
  cases cs with
  | nil => simp [takeWord] at h
  | cons c cs =>
      simp only [takeWord] at h
      split at h
      · simp only [Option.some.injEq, Prod.mk.injEq] at h
        obtain ⟨rfl, rfl⟩ := h
        simp
      · simp at h

/-- What is taken is a word. -/
theorem isWord_of_takeWord {cs word rest : List Char} (h : takeWord cs = some (word, rest)) :
    isWord word = true := by
  cases cs with
  | nil => simp [takeWord] at h
  | cons c cs =>
      simp only [takeWord] at h
      split at h
      · next hc =>
          simp only [Option.some.injEq, Prod.mk.injEq] at h
          obtain ⟨rfl, rfl⟩ := h
          simp [isWord, hc]
      · simp at h

end LoopFree
