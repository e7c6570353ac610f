import SkillLint.Config.Basic
import SkillLint.Counts
import SkillLint.Rule.Registry
import SkillLint.Workflow.Basic

/-!
# Runs

A `Run` says which project to judge and what to look at, and `Run.report` judges it.
Without a restriction a run applies all rules to all skills, compares the advertised
counts, and judges the workflow.  A `Focus` restricts it to the rules of a category or to
the workflow; the name of a skill restricts it to that skill, and the rules.

A run that applies rules needs the directory of skills and the skill that it names.
Nothing else makes it fail.
-/

namespace SkillLint

/-- What a run may be restricted to. -/
inductive Focus where
  | yaml
  | references
  | workflows
  deriving Repr, DecidableEq

namespace Focus

/-- The word for a focus. -/
def name : Focus → String
  | yaml => "yaml"
  | references => "references"
  | workflows => "workflows"

/-- The focus with the name. -/
def ofName? (word : String) : Option Focus :=
  [yaml, references, workflows].find? fun focus => focus.name == word

/-- The category of rules, if the focus is on rules. -/
def category? : Focus → Option Category
  | yaml => some .yaml
  | references => some .references
  | workflows => none

end Focus

/-- A name that starts with a dot. -/
def isHiddenName (name : String) : Bool := name.toList.head? == some '.'

/-- The skills of a directory: its directories, except hidden ones, in their order. -/
def discoverSkills (tree : FileTree) (dir : Path) : Except RunError (List Path) :=
  if !tree.isDir dir then .error (.skillsDirNotFound dir)
  else
    match tree.list dir with
    | .error reason => .error (.io reason.message)
    | .ok entries =>
      .ok (Path.sort (entries.filter fun p => tree.isDir p && !p.fileName?.any isHiddenName))

/-- What to judge. -/
structure Run where
  root : Path
  paths : ProjectPaths
  limits : Limits
  parser : HeaderParser
  focus : Option Focus
  skill : Option String

namespace Run

/-- The run that a configuration asks for, without a restriction. -/
def ofConfig (root : Path) (config : Config) : Run where
  root := root
  paths := config.paths
  limits := config.limits
  parser := config.parser.parser
  focus := none
  skill := none

/-- The directory of skills. -/
def skillsDir (run : Run) : Path := run.root.join run.paths.skillsDir

/-- The run applies rules. -/
def appliesRules (run : Run) : Bool := run.focus ≠ some .workflows

/-- The run compares counts. -/
def comparesCounts (run : Run) : Bool := run.focus.isNone && run.skill.isNone

/-- The run judges the workflow. -/
def judgesWorkflow (run : Run) : Bool :=
  match run.focus with
  | some focus => focus = .workflows
  | none => run.skill.isNone

/-- The rules that the run applies. -/
def rules (run : Run) : List Rule :=
  Rule.registryFor run.limits (run.focus.bind Focus.category?)

/-- The directories of the skills that the run applies rules to. -/
def skillDirs (tree : FileTree) (run : Run) : Except RunError (List Path) := do
  let dirs ← discoverSkills tree run.skillsDir
  match run.skill with
  | none => return dirs
  | some wanted =>
    match dirs.filter (·.fileName? = some wanted) with
    | [] => throw (.skillNotFound wanted)
    | dirs => return dirs

/-- The result of the skill in a directory; the directory names the skill. -/
def skillResult (tree : FileTree) (run : Run) (dir : Path) : SkillResult :=
  let id := dir.fileName?.getD ""
  ⟨id, Rule.issues run.rules tree (.ofDirectory dir id run.parser)⟩

/-- The results of all skills that the run applies rules to. -/
def results (tree : FileTree) (run : Run) : Except RunError (List SkillResult) :=
  if run.appliesRules then (run.skillDirs tree).map (·.map (run.skillResult tree)) else .ok []

/-- The report of the run. -/
def report (tree : FileTree) (run : Run) : Except RunError Report :=
  (run.results tree).map fun results => {
    results
    countIssues :=
      if run.comparesCounts then Counts.issues tree run.root run.skillsDir else []
    workflowIssues :=
      if run.judgesWorkflow then (Workflow.ofProject run.root run.paths run.parser).issues tree
      else [] }

end Run

end SkillLint
