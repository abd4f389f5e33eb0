/-!
# Text.Blank

White space as it separates the words of a source line.

* `inRanges` — membership in a table of code point ranges.
* `isBlank`  — the characters that separate words.
* `strip`    — a text without the blank characters at its two ends.
-/

namespace ChangeImpact.Text

/-- The code point of `c` lies in one of the closed ranges. -/
def inRanges (ranges : List (Nat × Nat)) (c : Char) : Bool :=
  ranges.any fun r => r.1 ≤ c.toNat && c.toNat ≤ r.2

/-- White space and the four information separators; a zero width space is not among them. -/
def blankRanges : List (Nat × Nat) := [
  (0x9, 0xd), (0x1c, 0x20), (0x85, 0x85), (0xa0, 0xa0), (0x1680, 0x1680), (0x2000, 0x200a),
  (0x2028, 0x2029), (0x202f, 0x202f), (0x205f, 0x205f), (0x3000, 0x3000)]

def isBlank (c : Char) : Bool := inRanges blankRanges c

def stripStart (s : List Char) : List Char := s.dropWhile isBlank

def stripEnd (s : List Char) : List Char := (s.reverse.dropWhile isBlank).reverse

def strip (s : List Char) : List Char := stripEnd (stripStart s)

/-- `strip` on a string. -/
def stripped (s : String) : String := .ofList (strip s.toList)

end ChangeImpact.Text
