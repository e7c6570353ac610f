import SkillLint.Text.Blank
import SkillLint.Text.Bytes
import SkillLint.Text.Search

/-!
# Lines of markdown

What a line of a markdown document is, as far as fences and tables are concerned.  Blanks
at the ends of a line never matter.
-/

namespace SkillLint.Markdown

open SkillLint.Text

/-- A line that opens or closes a code block: it starts with three backticks. -/
def isFence (line : List Char) : Bool := startsWith (List.replicate 3 '\x60') (trim line)

/-- A line between pipes, with something in between. -/
def isTableRow (line : List Char) : Bool :=
  let s := trim line
  s.head? == some '|' && s.getLast? == some '|' && 2 < byteLength s

/-- A character of the line between the header and the rows of a table. -/
def isSeparatorChar (c : Char) : Bool := isBlank c || c == '-' || c == ':' || c == '|'

/-- The line between the header and the rows of a table: pipes at its ends, and between
them at least one character, all of which draw lines. -/
def isSeparatorRow (line : List Char) : Bool :=
  match trim line with
  | '|' :: rest => 2 ≤ rest.length && rest.getLast? == some '|' && rest.all isSeparatorChar
  | _ => false

/-- An HTML comment starts in the line. -/
def hasComment (line : List Char) : Bool := occursIn "<!--".toList line

/-- The pipes that no backslash stands before. -/
def pipeCount : List Char → Nat
  | '\\' :: '|' :: rest => pipeCount rest
  | c :: rest => (if c == '|' then 1 else 0) + pipeCount rest
  | [] => 0

/-- The number of columns of a row: one less than its pipes. -/
def columnCount (line : List Char) : Nat := pipeCount (trim line) - 1

end SkillLint.Markdown
