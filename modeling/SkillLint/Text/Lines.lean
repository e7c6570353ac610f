/-!
# Lines

Two readings of a text as lines.  `splitLines` cuts at every line feed, so that the
pieces joined by line feeds are the text again and a final line feed leaves an empty
last piece.  `terminatedLines` treats the line feed as the end of a line: a final
line feed opens no further line, and a carriage return before a line feed belongs
to the line's end.
-/

namespace SkillLint.Text

/-- The pieces between line feeds. -/
def splitLines (s : List Char) : List (List Char) := s.splitOn '\n'

/-- The pieces, with a line feed between neighbours. -/
def joinLines (lines : List (List Char)) : List Char := ['\n'].intercalate lines

/-- The line without one carriage return at its end. -/
def dropReturn (line : List Char) : List Char :=
  if line.getLast? = some '\r' then line.dropLast else line

/-- The lines, each ended by a line feed or by the end of the text. -/
def terminatedLines (s : List Char) : List (List Char) :=
  let pieces := splitLines s
  let last := pieces.getLast?.getD []
  pieces.dropLast.map dropReturn ++ (if last.isEmpty then [] else [last])

end SkillLint.Text
