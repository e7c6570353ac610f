import SkillLint.Rule.Basic
import SkillLint.Text.Search

/-!
# The identity of a skill

The name of a skill is an identifier and that of its directory, and its description starts
with the situation that calls for the skill.
-/

namespace SkillLint.Rule

open SkillLint.Text

/-- The letters, digits and hyphens of ASCII. -/
def isIdentifierChar (c : Char) : Bool := c.isAlphanum || c == '-'

/-- A text of identifier characters, at least one. -/
def isIdentifier (s : String) : Bool := s ≠ "" && s.toList.all isIdentifierChar

/-- The name is an identifier and that of the directory. -/
def nameFormat : Rule :=
  onDocument "name-format" fun _ skill doc =>
    match doc.header.present? "name" with
    | none => []
    | some v =>
      match v.scalarText? with
      | none => [.error ("Invalid name format: expected a string, found " ++ v.typeName)]
      | some name =>
        if name = "" then []
        else
          (if isIdentifier name then []
            else [.error ("Invalid name format: '" ++ name ++
              "'. Use only letters, numbers, and hyphens.")]) ++
          (if name = skill.id then []
            else [.warning ("Directory name '" ++ skill.id ++ "' doesn't match skill name '" ++
              name ++ "'")])

/-- The description starts as descriptions should. -/
def descriptionFormat : Rule :=
  onDocument "description-format" fun _ _ doc =>
    match doc.description? with
    | none => []
    | some text =>
      if text ≠ "" && !startsWith Schema.descriptionStart.toList text.toList then
        [.warning ("Description should start with '" ++ Schema.descriptionStart ++
          "' (trigger-only format)")]
      else []

end SkillLint.Rule
