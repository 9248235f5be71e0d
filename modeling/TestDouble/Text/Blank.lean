import TestDouble.Text.Segments

/-!
# White space and words

A character is blank when it has the property White_Space of the Unicode character database. Words are the maximal runs of
characters that are not blank.
-/

namespace TestDouble.Text

/-- The ranges of code points with the property White_Space, first and last code point of each. -/
def blankRanges : List (Nat × Nat) :=
  [(0x09, 0x0D), (0x20, 0x20), (0x85, 0x85), (0xA0, 0xA0), (0x1680, 0x1680), (0x2000, 0x200A), (0x2028, 0x2029),
    (0x202F, 0x202F), (0x205F, 0x205F), (0x3000, 0x3000)]

/-- Whether a character is white space. -/
def isBlank (c : Char) : Bool :=
  blankRanges.any (fun range => decide (range.1 ≤ c.toNat ∧ c.toNat ≤ range.2))

/-- The words of a text, from left to right. -/
def words (text : String) : List String :=
  (wordsAt isBlank text.toList).map String.ofList

end TestDouble.Text
