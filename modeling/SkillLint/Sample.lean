import SkillLint.Schema.Layout

/-!
# A model skill

`Skill.modelDocument` is a document that satisfies every rule: all fields and sections,
five steps, and ninety lines of body that are not blank, which is the middle of the
default window.  It is what a new skill may start from.
-/

namespace SkillLint.Skill

/-- The number of facts in the model document; the other sections have twenty-one lines
that are not blank. -/
def modelFacts : Nat := 69

/-- The lines of the header, between two delimiters. -/
def modelHeaderLines (name related : String) : List String :=
  ["---",
    "name: " ++ name,
    "description: Use when drafting long-form pieces from research notes",
    "metadata:",
    "  triggers: draft, article, long-form",
    "  role: writer",
    "  scope: design",
    "  output-format: document",
    "  domain: craft",
    "  related-skills: " ++ related,
    "---"]

/-- The lines of the body. -/
def modelBodyLines (name : String) : List String :=
  ["",
    "# " ++ name,
    "",
    "## Role Definition",
    "You are a careful long-form writer.",
    "",
    "## When to Use This Skill",
    "- Drafting an article from notes",
    "- Expanding an outline",
    "- Restructuring a rough draft",
    "",
    "## Core Workflow",
    "1. Read the notes",
    "2. Build an outline",
    "3. Draft each section",
    "4. Revise for flow",
    "5. Proofread",
    "",
    "## Reference Guide",
    "See references/guide.md.",
    "",
    "## Constraints",
    "- Keep the author's voice",
    "",
    "## Output Templates",
    "A markdown document with headings.",
    "",
    "## Knowledge Reference"] ++
  ((List.range modelFacts).map fun i => "- Fact " ++ toString (i + 1)) ++
  ["", "## Related Skills", ""]

/-- A document for a skill of the name, with a related skill. -/
def modelDocument (name related : String) : String :=
  "\n".intercalate (modelHeaderLines name related ++ modelBodyLines name)

end SkillLint.Skill
