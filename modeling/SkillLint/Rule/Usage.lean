import SkillLint.Markdown.Section
import SkillLint.Rule.Basic
import SkillLint.Text.Lines
import SkillLint.Text.Word

/-!
# The notes on when to use a skill

The body may have a section that tells when to use the skill.  Its lines, headings and
blank lines apart, are mostly bullets.
-/

namespace SkillLint.Rule

open SkillLint.Text

/-- Matches the heading of the notes on when to use a skill; its end is optional. -/
def whenToUseHeading? (s : List Char) : Option (List Char) := do
  let s ← dropPrefix? "##".toList s
  let s ← dropWord? "when".toList (s.dropWhile isBlank)
  let s ← dropBlanks? s
  let s ← dropWord? "to".toList s
  let s ← dropBlanks? s
  let s ← dropWord? "use".toList s
  let ending := do
    let s ← dropBlanks? s
    let s ← dropWord? "this".toList s
    let s ← dropBlanks? s
    dropWord? "skill".toList s
  some (ending.getD s)

/-- The line is a bullet: a hyphen or a star after blanks, and a blank behind it. -/
def isBullet (line : List Char) : Bool :=
  match line.dropWhile isBlank with
  | mark :: c :: _ => (mark == '-' || mark == '*') && isBlank c
  | _ => false

/-- The line counts: it is neither blank nor a heading. -/
def isContentLine (line : List Char) : Bool :=
  match trim line with
  | [] => false
  | c :: _ => c != '#'

/-- At least half of the notes on when to use the skill are bullets. -/
def whenToUse : Rule :=
  onDocument "when-to-use-format" fun _ _ doc =>
    match Markdown.sectionAfter? whenToUseHeading? doc.body.toList with
    | none => []
    | some content =>
      let lines := (splitLines (trim content)).filter isContentLine
      if lines.countP (!isBullet ·) > lines.length / 2 then
        [.warning "'When to Use' section should use bullet list format (- or *)"]
      else []

end SkillLint.Rule
