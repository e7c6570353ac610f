import SkillLint.Text.Blank
import SkillLint.Text.Search

/-!
# Sections of a document

Sections are found by their headings.  The **section after a heading** goes from the end
of the heading's words to the next line that starts with two number signs and a blank
(`upToHeading`).  A matcher of a heading may cross lines: the gaps in a heading are any
blanks, line breaks included.

`titles` lists the titles of all headings.
-/

namespace SkillLint.Markdown

open SkillLint.Text

/-- Two number signs and a blank follow. -/
def startsHeading (s : List Char) : Bool :=
  match dropPrefix? ['#', '#'] s with
  | some (c :: _) => isBlank c
  | _ => false

/-- The text up to a line feed before a heading. -/
def upToHeading : List Char → List Char
  | [] => []
  | c :: rest => if c == '\n' && startsHeading rest then [] else c :: upToHeading rest

/-- The section after the leftmost heading that the matcher finds. -/
def sectionAfter? (heading : List Char → Option (List Char)) (body : List Char) :
    Option (List Char) :=
  (restAfter? heading body).map upToHeading

/-- The titles of the headings, trimmed.  A heading starts a line with two number signs
and a blank, and its title starts at the next character that is not blank, on whatever
line that is; the title's line is then no heading of its own.  The first argument tells
that a heading waits for its title. -/
def titles : Bool → List (List Char) → List (List Char)
  | _, [] => []
  | true, line :: rest =>
    if isAllBlank line then titles true rest else trim line :: titles false rest
  | false, line :: rest =>
    match dropPrefix? "##".toList line with
    | none => titles false rest
    | some title =>
      if isAllBlank title then titles true rest
      else if title.head?.any isBlank then trim title :: titles false rest
      else titles false rest

end SkillLint.Markdown
