import SkillLint.Rule.Declaration
import SkillLint.Schema.Vocabulary
import SkillLint.Text.Blank

/-!
# The metadata of a skill

The metadata have the right shape: a mapping that declares its required fields, with
triggers that are a string, a known domain, and related skills that lie next to the skill.
Two further fields take their values from a vocabulary (`metadataWord`).

A field with the value null is declared, but its value is not looked at any further,
except that null names no related skill.
-/

namespace SkillLint.Rule

open SkillLint.Text

/-- The value is a string that is not blank. -/
def isFilledString (v : Value) : Bool :=
  match v with
  | .string s => !isAllBlank s.toList
  | _ => false

/-- Findings about the triggers: a string that is not blank. -/
def triggersFindings (metadata : Mapping) : List Finding :=
  match metadata.present? "triggers" with
  | some v =>
    if isFilledString v then []
    else [.error "'metadata.triggers' must be a non-empty string"]
  | none => []

/-- Findings about the domain: a known one. -/
def domainFindings (metadata : Mapping) : List Finding :=
  match metadata.present? "domain" with
  | some v =>
    if v.asString?.any (Vocabulary.contains Domain) then []
    else
      [.warning ("Unknown domain: '" ++ v.display ++ "'. Known: " ++ Vocabulary.expected Domain)]
  | none => []

/-- The names in a list that is separated by commas. -/
def listedNames (s : String) : List String :=
  ((s.toList.splitOn ',').map fun item => String.ofList (trim item)).filter (· ≠ "")

/-- Findings about the related skills: a string that names directories next to the
skill. -/
def relatedFindings (tree : FileTree) (siblings : Path) (metadata : Mapping) : List Finding :=
  match metadata.get? "related-skills" with
  | none => []
  | some .null => [.warning "'metadata.related-skills' is empty"]
  | some (.string s) =>
    if isAllBlank s.toList then [.warning "'metadata.related-skills' is empty"]
    else
      ((listedNames s).filter fun name => !tree.isDir (siblings.join name)).map fun name =>
        .warning ("'metadata.related-skills' references non-existent skill: '" ++ name ++ "'")
  | some _ => [.error "'metadata.related-skills' must be a string"]

/-- The metadata have the right shape and content. -/
def metadataFields : Rule :=
  onDocument "metadata-fields" fun tree skill doc =>
    match doc.header.present? "metadata" with
    | none => [.error "Missing 'metadata' key"]
    | some v =>
      match v.asMap? with
      | none => [.error "'metadata' must be a mapping"]
      | some metadata =>
        ((missingFields Schema.requiredMetadataFields metadata).map fun field =>
          .error ("Missing required metadata field: " ++ field)) ++
        triggersFindings metadata ++ domainFindings metadata ++
        relatedFindings tree skill.siblingsPath metadata

/-- A field of the metadata, where it is present, is a word of the vocabulary `α`. -/
def metadataWord (α : Type) [Vocabulary α] (name field : String) : Rule :=
  onDocument name fun _ _ doc =>
    match (doc.header.present? "metadata").bind Value.asMap? with
    | none => []
    | some metadata =>
      match metadata.present? field with
      | none => []
      | some v =>
        if v.asString?.any (Vocabulary.contains α) then []
        else
          [.warning ("Unknown " ++ field ++ ": '" ++ v.display ++ "'. Expected: " ++
            Vocabulary.expected α)]

end SkillLint.Rule
