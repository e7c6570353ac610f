import SkillLint.Markdown.Section
import SkillLint.Rule.Basic
import SkillLint.Text.Digit
import SkillLint.Text.Lines

/-!
# The steps of the core workflow

The body has a section with the core workflow, and that section has the right number of
steps.  A step is a line that starts with a number and a dot.
-/

namespace SkillLint.Rule

open SkillLint.Text

/-- Matches the heading of the core workflow. -/
def coreWorkflowHeading? (s : List Char) : Option (List Char) := do
  let s ← dropPrefix? "##".toList s
  let s ← dropPrefix? "Core".toList (s.dropWhile isBlank)
  let s ← dropBlanks? s
  dropPrefix? "Workflow".toList s

/-- The line starts with decimal digits and a dot, and a blank follows.  The line feed
at the end of the line, which the last line lacks, is such a blank. -/
def isStep (isLast : Bool) (line : List Char) : Bool :=
  match line.span isDecimalDigit with
  | (_ :: _, '.' :: []) => !isLast
  | (_ :: _, '.' :: c :: _) => isBlank c
  | _ => false

/-- The number of lines that are steps. -/
def stepCount : List (List Char) → Nat
  | [] => 0
  | [line] => if isStep true line then 1 else 0
  | line :: rest => (if isStep false line then 1 else 0) + stepCount rest

/-- The body has a core workflow with the right number of steps. -/
def coreWorkflow : Rule :=
  onDocument "core-workflow-steps" fun _ _ doc =>
    match Markdown.sectionAfter? coreWorkflowHeading? doc.body.toList with
    | none => [.warning "Missing '## Core Workflow' section"]
    | some content =>
      let steps := stepCount (splitLines content)
      if steps = Schema.coreWorkflowSteps then []
      else
        [.warning ("Core Workflow has " ++ toString steps ++ " steps (expected " ++
          toString Schema.coreWorkflowSteps ++ ")")]

end SkillLint.Rule
