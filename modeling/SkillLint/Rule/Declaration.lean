import SkillLint.Rule.Basic

/-!
# What a document declares

The document exists, is delimited, and its header parses; the header declares every
required field.  A field counts as declared when its key is there, even with the value
null.
-/

namespace SkillLint.Rule

/-- The wording of a failed extraction. -/
def extractMessage : ExtractError → String
  | .missing => "Missing SKILL.md file"
  | .unreadable reason => "Cannot read SKILL.md: " ++ reason.message
  | .split .noOpeningDelimiter => "SKILL.md does not start with YAML frontmatter (---)"
  | .split .noClosingDelimiter => "Invalid YAML frontmatter structure (missing closing ---)"
  | .parse reason => "YAML parsing error: " ++ reason.message

/-- The document exists, is delimited, and its header parses. -/
def readable : Rule where
  name := "yaml"
  category := .yaml
  check tree skill :=
    match skill.extraction tree with
    | .ok _ => []
    | .error reason =>
      [(Finding.error (extractMessage reason)).toIssue skill "yaml" skill.documentPath]

/-- The required fields that are not declared. -/
def missingFields (required : List String) (m : Mapping) : List String :=
  required.filter (!m.contains ·)

/-- The header declares every required field. -/
def requiredFields : Rule :=
  onDocument "required-fields" fun _ _ doc =>
    (missingFields Schema.requiredFields doc.header).map fun field =>
      .error ("Missing required field: " ++ field)

end SkillLint.Rule
