import SkillLint.Rule.Basic
import SkillLint.Text.Blank
import SkillLint.Text.Lines

/-!
# The length of body and description

The body has neither too few nor too many lines, and the description not too many
characters.  The limits are those of the project.
-/

namespace SkillLint.Rule

open SkillLint.Text

/-- The number of lines that are not blank. -/
def filledLines (body : String) : Nat :=
  (splitLines body.toList).countP (!isAllBlank ·)

/-- The number of filled lines lies between the limits. -/
def lineCount (least most : Nat) : Rule :=
  onDocument "line-count" fun _ _ doc =>
    let count := filledLines doc.body
    if count < least then
      [.warning ("SKILL.md has " ++ toString count ++ " non-blank lines (minimum " ++
        toString least ++ ")")]
    else if count > most then
      [.warning ("SKILL.md has " ++ toString count ++ " non-blank lines (maximum " ++
        toString most ++ ")")]
    else []

/-- The description is not longer than `limit` characters. -/
def descriptionLength (limit : Nat) : Rule :=
  onDocument "description-length" fun _ _ doc =>
    match doc.description? with
    | none => []
    | some text =>
      let length := text.toList.length
      if length > limit then
        [.warning ("Description exceeds " ++ toString limit ++ " chars (" ++ toString length ++
          " chars)")]
      else []

end SkillLint.Rule
