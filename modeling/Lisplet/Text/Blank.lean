/-!
# Blank characters

The characters that separate words and that are dropped from the ends of a setting. The set is
the white space of the Unicode character database together with the four ASCII separators
U+001C..U+001F; the zero-width characters and the byte order mark are not blank.
-/

namespace Lisplet.Text

/-- Code points of the blank characters, as closed intervals in rising order. -/
def blankRanges : List (Nat × Nat) :=
  [(0x09, 0x0D), (0x1C, 0x20), (0x85, 0x85), (0xA0, 0xA0), (0x1680, 0x1680), (0x2000, 0x200A),
   (0x2028, 0x2029), (0x202F, 0x202F), (0x205F, 0x205F), (0x3000, 0x3000)]

/-- A code point lies in one of the intervals. -/
def inRanges (ranges : List (Nat × Nat)) (n : Nat) : Bool :=
  ranges.any fun r => decide (r.1 ≤ n) && decide (n ≤ r.2)

/-- The character separates words. -/
def isBlank (c : Char) : Bool :=
  inRanges blankRanges c.toNat

/-- Nothing but blank characters; the empty text included. -/
def allBlank (text : String) : Bool :=
  text.toList.all isBlank

/-- The text without the blank characters at its two ends. -/
def trim (chars : List Char) : List Char :=
  ((chars.dropWhile isBlank).reverse.dropWhile isBlank).reverse

theorem isBlank_space : isBlank ' ' = true := by decide

/-- Every ASCII white space character is blank. -/
theorem isBlank_of_isWhitespace {c : Char} (h : c.isWhitespace = true) : isBlank c = true := by
  simp only [Char.isWhitespace, Bool.or_eq_true, decide_eq_true_eq] at h
  rcases h with ((rfl | rfl) | rfl) | rfl <;> decide

end Lisplet.Text
