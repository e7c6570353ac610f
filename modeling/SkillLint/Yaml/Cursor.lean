import SkillLint.Text.Bytes

/-!
# Characters and places of a YAML stream

The classes of characters that the YAML grammar distinguishes, and `Cursor`: the rest
of a stream together with the place where it starts.  A place counts the bytes and the
lines before it and the characters before it on its line.  A line break is one step for
the line count, whether it is a carriage return, a line feed, both, or one of the three
Unicode breaks.
-/

namespace SkillLint.Yaml

/-- The characters that a stream may hold. -/
def isPrintable (c : Char) : Bool :=
  let n := c.toNat
  n == 0x09 || n == 0x0A || n == 0x0D || (0x20 ≤ n && n ≤ 0x7E) || n == 0x85 ||
    (0xA0 ≤ n && n ≤ 0xD7FF) || (0xE000 ≤ n && n ≤ 0xFFFD) ||
    (0x10000 ≤ n && n ≤ 0x10FFFF)

/-- A character that ends a line. -/
def isBreak (c : Char) : Bool :=
  c == '\n' || c == '\r' || c == '\u0085' || c == '\u2028' || c == '\u2029'

/-- A space or a tab. -/
def isSpace (c : Char) : Bool := c == ' ' || c == '\t'

/-- A space, a tab or a character that ends a line. -/
def isGap (c : Char) : Bool := isSpace c || isBreak c

/-- The characters of names: ASCII letters and digits, the hyphen and the underscore. -/
def isWord (c : Char) : Bool := c.isAlphanum || c == '-' || c == '_'

/-- The value of a hexadecimal digit. -/
def hexValue? (c : Char) : Option Nat :=
  if '0' ≤ c ∧ c ≤ '9' then some (c.toNat - '0'.toNat)
  else if 'a' ≤ c ∧ c ≤ 'f' then some (c.toNat - 'a'.toNat + 10)
  else if 'A' ≤ c ∧ c ≤ 'F' then some (c.toNat - 'A'.toNat + 10)
  else none

/-- The rest of a stream and the place where it starts. -/
structure Cursor where
  rest : List Char
  index : Nat
  line : Nat
  column : Nat
  deriving Repr, DecidableEq

namespace Cursor

/-- The start of a text. -/
def start (text : List Char) : Cursor := ⟨text, 0, 0, 0⟩

/-- The next character. -/
def peek? (c : Cursor) : Option Char := c.rest.head?

/-- The character `n` places further on. -/
def ahead? (c : Cursor) (n : Nat) : Option Char := c.rest[n]?

/-- The next character is `ch`. -/
def looksAt (c : Cursor) (ch : Char) : Bool := c.peek? == some ch

/-- The character `n` places further on is a space, a tab, a break or the end. -/
def gapAhead (c : Cursor) (n : Nat) : Bool := (c.ahead? n).all isGap

/-- The cursor `n` characters further on, none of them a break. -/
def skip (c : Cursor) (n : Nat) : Cursor :=
  ⟨c.rest.drop n, c.index + Text.byteLength (c.rest.take n), c.line, c.column + n⟩

/-- The longest run of characters with the property, none of them a break, and the
cursor after it. -/
def takeWhile (p : Char → Bool) (c : Cursor) : List Char × Cursor :=
  let taken := c.rest.takeWhile p
  (taken, c.skip taken.length)

/-- The cursor after the longest run of characters with the property. -/
def dropWhile (p : Char → Bool) (c : Cursor) : Cursor := (c.takeWhile p).2

/-- The cursor after a byte order mark, which may stand at the start of a line.  It does
not count as content, but takes a place on its line. -/
def skipMark (c : Cursor) : Cursor :=
  if c.column == 0 && c.looksAt '\ufeff' then c.skip 1 else c

/-- The cursor at the start of the next line, after a break of `n` bytes. -/
def newLine (c : Cursor) (rest : List Char) (n : Nat) : Cursor :=
  ⟨rest, c.index + n, c.line + 1, 0⟩

/-- A line break, as it reads inside a scalar, and the cursor after it.  All breaks
read as a line feed but the Unicode line and paragraph separators, which are kept. -/
def lineBreak? (c : Cursor) : Option (List Char × Cursor) :=
  match c.rest with
  | '\r' :: '\n' :: rest => some (['\n'], c.newLine rest 2)
  | ch :: rest =>
    if ch == '\u2028' || ch == '\u2029' then some ([ch], c.newLine rest ch.utf8Size)
    else if isBreak ch then some (['\n'], c.newLine rest ch.utf8Size)
    else none
  | [] => none

/-- Three hyphens or three dots at the start of a line, with a gap after them. -/
def atDocumentMark (c : Cursor) : Bool :=
  c.column == 0 && (c.rest.take 3 == "---".toList || c.rest.take 3 == "...".toList) &&
    c.gapAhead 3

end Cursor

end SkillLint.Yaml
