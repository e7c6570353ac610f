import SkillLint.FileTree.Walk
import SkillLint.Header.Parser
import SkillLint.Report.Basic
import SkillLint.Schema.Layout
import SkillLint.Text.Blank

/-!
# The workflow of a project

A `Workflow` says where the commands and the manifest of a project lie.  Paths written
inside records are `resolve`d against the root of the project, and messages show paths
as they lie below the root (`relative`).

A **record** is structured data in a file of its own; `loadRecord` reads one.  The
records of commands are the `yaml` files below the directory of commands, except files
that have the name of the manifest.
-/

namespace SkillLint

/-- Where a project keeps its parts, below its root. -/
structure ProjectPaths where
  skillsDir : String
  commandsDir : String
  manifest : String
  deriving Repr, DecidableEq

/-- The paths, unless configured. -/
def ProjectPaths.default : ProjectPaths :=
  ⟨Schema.skillsDir, Schema.commandsDir, Schema.manifestFile⟩

/-- The root of a project, and where its workflow lies. -/
structure Workflow where
  root : Path
  commandsDir : Path
  manifest : Path
  parser : HeaderParser

/-- Why a record could not be loaded. -/
inductive RecordError where
  | empty
  | unreadable (reason : ReadError)
  | parse (reason : ParseError)
  deriving Repr, DecidableEq

namespace Workflow

/-- The scope of issues about all commands. -/
def workflowScope : String := "__workflow__"

/-- The scope of issues about the manifest. -/
def manifestScope : String := "__manifest__"

/-- The scope of issues about documents without record. -/
def orphansScope : String := "__orphans__"

/-- The workflow of the project at a root. -/
def ofProject (root : Path) (paths : ProjectPaths) (parser : HeaderParser) : Workflow where
  root := root
  commandsDir := root.join paths.commandsDir
  manifest := root.join paths.manifest
  parser := parser

/-- The steps of a path below the root; a path elsewhere keeps all its steps. -/
def stepsBelowRoot (w : Workflow) (p : Path) : List Path.Component :=
  (w.root.stripPrefix? p).getD p.components

/-- The path as messages show it. -/
def relative (w : Workflow) (p : Path) : String :=
  "/".intercalate ((w.stepsBelowRoot p).map Path.Component.text)

/-- The path that is written in a record. -/
def resolve (w : Workflow) (text : String) : Path := w.root.join text

/-- The file has the name of the manifest. -/
def isManifest (w : Workflow) (p : Path) : Bool :=
  match p.fileName?, w.manifest.fileName? with
  | some name, some manifest => name == manifest
  | _, _ => false

/-- The files of the records of commands, in the order of their paths. -/
def recordFiles (w : Workflow) (tree : FileTree) : List Path :=
  (tree.filesWithExtension w.commandsDir "yaml").filter (!w.isManifest ·)

/-- Reads a record.  A file of blanks is empty. -/
def loadRecord (w : Workflow) (tree : FileTree) (p : Path) : Except RecordError Mapping :=
  match tree.readText p with
  | .error reason => .error (.unreadable reason)
  | .ok text =>
    if Text.isAllBlank text.toList then .error .empty
    else
      match w.parser.parse text with
      | .error reason => .error (.parse reason)
      | .ok record => .ok record

end Workflow

end SkillLint
