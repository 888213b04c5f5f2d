/-!
# Blank characters

A character is *blank* when it has the Unicode property White_Space. Twenty-five characters have it,
in ten ranges, and the set has been the same since Unicode 6.3. Neither the zero-width characters
(U+200B, U+2060, U+FEFF) nor the ASCII separators U+001C to U+001F belong to it.

Type declarations are read with blanks removed from both ends, which is what `trim` does.
-/

namespace WireBindings.Text

/-- Whether the code point of `c` lies in one of the closed ranges. -/
def inRanges (ranges : List (Nat × Nat)) (c : Char) : Bool :=
  ranges.any fun (first, last) => first ≤ c.toNat && c.toNat ≤ last

/-- The code points with the property White_Space, as closed ranges in ascending order. -/
def blankRanges : List (Nat × Nat) :=
  [(0x09, 0x0D), (0x20, 0x20), (0x85, 0x85), (0xA0, 0xA0), (0x1680, 0x1680), (0x2000, 0x200A),
   (0x2028, 0x2029), (0x202F, 0x202F), (0x205F, 0x205F), (0x3000, 0x3000)]

/-- Whether a character is white space in the sense of Unicode. -/
def isBlank (c : Char) : Bool := inRanges blankRanges c

/-- The text without the blanks at its two ends. -/
def trim (text : List Char) : List Char :=
  ((text.dropWhile isBlank).reverse.dropWhile isBlank).reverse

theorem length_dropWhile_le {α : Type} (p : α → Bool) (l : List α) :
    (l.dropWhile p).length ≤ l.length :=
  (List.dropWhile_sublist p).length_le

/-- Trimming never lengthens a text. Nested declarations are read on ever shorter texts by this. -/
theorem length_trim_le (text : List Char) : (trim text).length ≤ text.length := by
  have houter := length_dropWhile_le isBlank (text.dropWhile isBlank).reverse
  have hinner := length_dropWhile_le isBlank text
  simp only [List.length_reverse] at houter
  simp only [trim, List.length_reverse]
  omega

end WireBindings.Text
