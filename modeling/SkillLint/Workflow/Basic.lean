import SkillLint.Workflow.Manifest
import SkillLint.Workflow.Orphans
import SkillLint.Workflow.Record

/-!
# Judging a workflow

The issues about a workflow: those about records, then those about the manifest, then
the orphans.
-/

namespace SkillLint.Workflow

/-- The issues about a workflow. -/
def issues (w : Workflow) (tree : FileTree) : List Issue :=
  w.recordIssues tree ++ w.manifestIssues tree ++ w.orphanIssues tree

end SkillLint.Workflow
