import SkillLint.Workflow.Context

/-!
# Documents without a record

A command document is an **orphan** when no record of the workflow has its path: the
path below the root, spelled as messages show it.  Documents that introduce a directory
and documents below a directory of references are not command documents.
-/

namespace SkillLint.Workflow

/-- The name of the check. -/
def orphansCheck : String := "workflow-orphans"

/-- The paths that the records of the workflow give, as they are written.  A record that
cannot be loaded gives none. -/
def referencedPaths (w : Workflow) (tree : FileTree) : List String :=
  (w.recordFiles tree).filterMap fun file =>
    match w.loadRecord tree file with
    | .ok record => (record.get? "path").bind Value.scalarText?
    | .error _ => none

/-- The file is a command document. -/
def isCommandDocument (w : Workflow) (p : Path) : Bool :=
  !(w.stepsBelowRoot p).contains (.normal Schema.referencesDir) &&
    p.fileName? != some Schema.commandIndexFile

/-- The paths of orphans, as messages show them, in the order of their files. -/
def orphans (w : Workflow) (tree : FileTree) : List String :=
  let referenced := w.referencedPaths tree
  (((tree.filesWithExtension w.commandsDir "md").filter w.isCommandDocument).map
    w.relative).filter (!referenced.contains ·)

/-- The issues about orphans.  Without a directory of commands there are none. -/
def orphanIssues (w : Workflow) (tree : FileTree) : List Issue :=
  if tree.isDir w.commandsDir then
    (w.orphans tree).map fun label =>
      ⟨orphansScope, orphansCheck, .warning, "Command file has no YAML definition: " ++ label,
        some label⟩
  else []

end SkillLint.Workflow
