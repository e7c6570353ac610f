import SkillLint.Rule.Declaration
import SkillLint.Rule.Identity
import SkillLint.Rule.Length
import SkillLint.Rule.Metadata
import SkillLint.Rule.Order
import SkillLint.Rule.References
import SkillLint.Rule.Steps
import SkillLint.Rule.Usage

/-!
# The rules in their order

All rules for skills, in the order in which they are applied and their issues reported.
-/

namespace SkillLint.Rule

/-- All rules, with the limits of a project. -/
def registry (limits : Limits) : List Rule :=
  [readable, requiredFields, metadataFields, nameFormat,
    descriptionLength limits.maxDescriptionChars, descriptionFormat,
    metadataWord Scope "scope-enum" "scope",
    metadataWord OutputFormat "output-format-enum" "output-format",
    coreWorkflow, whenToUse, sectionOrder, lineCount limits.minBodyLines limits.maxBodyLines,
    referencesDirectory, referenceCount, nonStandardHeaders limits.markerScanLines]

/-- The rules of a category, or all of them. -/
def registryFor (limits : Limits) (category : Option Category) : List Rule :=
  (registry limits).filter fun rule => category.all (· = rule.category)

end SkillLint.Rule
