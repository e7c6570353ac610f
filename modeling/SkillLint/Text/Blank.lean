/-!
# Blank characters and trimming

A character is **blank** when Unicode gives it the property `White_Space`: the
twenty-five code points of `isBlank`.  Everywhere in this library a "blank line",
a "trimmed text" and the gaps of a search pattern mean this class, which is wider
than the four characters of `Char.isWhitespace` (`isBlank_of_isWhitespace`).

Texts are lists of characters here; `trim` cuts blanks from both ends and keeps
everything between, and `dropBlanks?` is the matcher of a gap.
-/

namespace SkillLint.Text

/-- The characters with the Unicode property `White_Space`. -/
def isBlank (c : Char) : Bool :=
  let n := c.toNat
  (9 ≤ n && n ≤ 13) || n == 0x20 || n == 0x85 || n == 0xA0 || n == 0x1680 ||
    (0x2000 ≤ n && n ≤ 0x200A) || n == 0x2028 || n == 0x2029 || n == 0x202F ||
    n == 0x205F || n == 0x3000

/-- Every character that the core library calls whitespace is blank. -/
theorem isBlank_of_isWhitespace {c : Char} (h : c.isWhitespace = true) : isBlank c = true := by
  simp only [Char.isWhitespace, Bool.or_eq_true, decide_eq_true_eq] at h
  rcases h with ((rfl | rfl) | rfl) | rfl <;> rfl

/-- The text without its leading blanks. -/
def trimLeft (s : List Char) : List Char := s.dropWhile isBlank

/-- The text without its trailing blanks. -/
def trimRight (s : List Char) : List Char := (s.reverse.dropWhile isBlank).reverse

/-- The text without the blanks at its two ends. -/
def trim (s : List Char) : List Char := trimRight (trimLeft s)

/-- What follows a run of blanks, of which there has to be one. -/
def dropBlanks? : List Char → Option (List Char)
  | c :: rest => if isBlank c then some (rest.dropWhile isBlank) else none
  | [] => none

/-- A text of blanks only, or of nothing. -/
def isAllBlank (s : List Char) : Bool := s.all isBlank

end SkillLint.Text
