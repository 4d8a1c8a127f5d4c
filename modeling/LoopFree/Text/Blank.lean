/-
Blank space: the characters with the Unicode property White_Space.
-/
import LoopFree.Text.CodeRange

namespace LoopFree.Text

/-- The code points of the property, in ascending order. -/
def blankRanges : List CodeRange :=
  [
    ⟨0x0009, 0x000D⟩, ⟨0x0020, 0x0020⟩, ⟨0x0085, 0x0085⟩, ⟨0x00A0, 0x00A0⟩, ⟨0x1680, 0x1680⟩,
    ⟨0x2000, 0x200A⟩, ⟨0x2028, 0x2029⟩, ⟨0x202F, 0x202F⟩, ⟨0x205F, 0x205F⟩, ⟨0x3000, 0x3000⟩
  ]

/-- The character separates tokens and means nothing else. -/
def isBlank (c : Char) : Bool :=
  CodeRange.contains blankRanges c.toNat

end LoopFree.Text
