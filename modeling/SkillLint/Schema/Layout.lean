/-!
# The layout of skills and workflow records

Names of files and directories, required fields, and the other fixed words and numbers
that the rules compare with.
-/

namespace SkillLint.Schema

/-- The document of a skill, in the directory of the skill. -/
def skillFile : String := "SKILL.md"

/-- The directory of reference documents, in the directory of the skill. -/
def referencesDir : String := "references"

/-- The name of a document that introduces a directory of commands. -/
def commandIndexFile : String := "COMMAND.md"

/-- The directory of skills, unless configured. -/
def skillsDir : String := "skills"

/-- The directory of commands, unless configured. -/
def commandsDir : String := "commands"

/-- The manifest of the workflow, unless configured. -/
def manifestFile : String := "commands/workflow-manifest.yaml"

/-- The files that advertise how many skills and references there are. -/
def countFiles : List String :=
  [".claude-plugin/plugin.json", ".claude-plugin/marketplace.json", "README.md"]

/-- The fields of every header. -/
def requiredFields : List String := ["name", "description"]

/-- The fields of the metadata of every header. -/
def requiredMetadataFields : List String :=
  ["triggers", "role", "scope", "output-format", "domain", "related-skills"]

/-- The fields of every workflow record. -/
def recordRequiredFields : List String :=
  ["command", "path", "description", "inputs", "outputs", "requires"]

/-- The field that a record needs when its command belongs to a phase. -/
def recordPhaseField : String := "phase"

/-- The fields of every input of a record. -/
def inputRequiredFields : List String := ["name", "type", "required", "description"]

/-- The fields of every output of a record. -/
def outputRequiredFields : List String := ["name", "type"]

/-- The sections of a body, in the order that they should have. -/
def sectionOrder : List String :=
  ["Role Definition", "When to Use This Skill", "Core Workflow", "Reference Guide",
    "Constraints", "Output Templates", "Knowledge Reference", "Related Skills"]

/-- What a description should start with. -/
def descriptionStart : String := "Use when"

/-- The number of steps of a core workflow. -/
def coreWorkflowSteps : Nat := 5

/-- Phrases that should not stand near the top of a reference document. -/
def nonStandardMarkers : List String := ["Reference for:", "Load when:"]

end SkillLint.Schema
