import SkillLint.Schema.Vocabulary
import SkillLint.Workflow.Context
import SkillLint.Workflow.Cycles
import SkillLint.Workflow.Record

/-!
# The manifest of a workflow

The manifest lists phases, each with a description, the phases it depends on and its
commands, and after them commands outside all phases, the utilities.  A listed command
may name the file of its record.

`manifestIssues` judges a manifest: the phases have their shape, what they name exists,
no command is listed twice (`CommandRegistry`), the dependencies have no cycle, and a
listed command has the name that its record gives it.
-/

namespace SkillLint.Workflow

/-- The name of the check. -/
def manifestCheck : String := "manifest-dag"

/-! ## Commands listed twice -/

/-- The commands listed so far, and those of them already reported. -/
structure CommandRegistry where
  seen : List String
  reported : List String
  deriving Repr, DecidableEq

namespace CommandRegistry

/-- Nothing is listed. -/
def empty : CommandRegistry := ⟨[], []⟩

/-- Lists a command; the answer is a message when it is listed for the second time.  A
command without name is not listed. -/
def register (r : CommandRegistry) (name : String) : Option String × CommandRegistry :=
  if name = "" then (none, r)
  else if !r.seen.contains name then (none, { r with seen := name :: r.seen })
  else if r.reported.contains name then (none, r)
  else (some ("Duplicate command: '" ++ name ++ "'"), { r with reported := name :: r.reported })

end CommandRegistry

/-! ## Phases and listed commands -/

/-- What is under a key of a mapping, each with its name. -/
abbrev PhaseEntries := List (String × Value)

/-- The phases that are mappings. -/
def mappingPhases (phases : PhaseEntries) : List (String × Mapping) :=
  phases.filterMap fun (name, phase) => phase.asMap?.map fun m => (name, m)

/-- Remarks about a listed command: it is listed once, and the file of its record
exists. -/
def listedRemarks (w : Workflow) (tree : FileTree) (label : String) (entry : Mapping)
    (registry : CommandRegistry) : List Remark × CommandRegistry :=
  let name := entry.text "command"
  let definition := entry.text "definition"
  let (duplicate, registry) := registry.register name
  (duplicate.toList.map blocking ++
    (if definition ≠ "" && !tree.pathExists (w.resolve definition) then
      [blocking (label ++ " '" ++ name ++ "' definition not found: " ++ definition)]
    else []), registry)

/-- Remarks about listed commands, one after another. -/
def listRemarks (w : Workflow) (tree : FileTree) (label : String) :
    List Mapping → CommandRegistry → List Remark × CommandRegistry
  | [], registry => ([], registry)
  | entry :: rest, registry =>
    let (first, registry) := listedRemarks w tree label entry registry
    let (others, registry) := listRemarks w tree label rest registry
    (first ++ others, registry)

/-- Remarks about a dependency of a phase: it is on a phase, with a known strength. -/
def dependencyRemarks (phases : Mapping) (name : String) (dependency : Mapping) : List Remark :=
  let target := dependency.text "phase"
  let strength := dependency.text "strength"
  (if target ≠ "" && !phases.contains target then
    [blocking ("Phase '" ++ name ++ "' depends on undefined phase: '" ++ target ++ "'")]
  else []) ++
  (if strength ≠ "" && !Vocabulary.contains DependencyStrength strength then
    [advisory ("Phase '" ++ name ++ "' dependency strength '" ++ strength ++ "' not standard")]
  else [])

/-- Remarks about the description and the dependencies of a phase. -/
def phaseShapeRemarks (w : Workflow) (tree : FileTree) (phases : Mapping) (name : String)
    (phase : Mapping) : List Remark :=
  let description := phase.text "description"
  (if description ≠ "" && !tree.pathExists (w.resolve description) then
    [blocking ("Phase '" ++ name ++ "' description not found: " ++ description)]
  else []) ++
  (phase.mappings "depends_on").flatMap (dependencyRemarks phases name)

/-- Remarks about phases, one after another. -/
def phasesRemarks (w : Workflow) (tree : FileTree) (phases : Mapping) :
    PhaseEntries → CommandRegistry → List Remark × CommandRegistry
  | [], registry => ([], registry)
  | (name, value) :: rest, registry =>
    let (first, registry) :=
      match value.asMap? with
      | none => ([blocking ("Phase '" ++ name ++ "' must be a mapping")], registry)
      | some phase =>
        let (commands, registry) :=
          listRemarks w tree "Command" (phase.mappings "commands") registry
        (phaseShapeRemarks w tree phases name phase ++ commands, registry)
    let (others, registry) := phasesRemarks w tree phases rest registry
    (first ++ others, registry)

/-- The phases with the phases that they depend on. -/
def dependencyGraph (phases : Mapping) : DependencyGraph :=
  (mappingPhases phases.entries).map fun (name, phase) =>
    (name, ((phase.mappings "depends_on").map (·.text "phase")).filter (· ≠ ""))

/-- Remarks about cycles of dependencies. -/
def cycleRemarks (phases : Mapping) : List Remark :=
  (dependencyGraph phases).findCycles.map fun cycle =>
    blocking ("DAG cycle detected: " ++ " -> ".intercalate cycle)

/-- The listed commands: those of the phases, and then the utilities. -/
def listedCommands (manifest phases : Mapping) : List Mapping :=
  ((mappingPhases phases.entries).flatMap fun (_, phase) => phase.mappings "commands") ++
    manifest.mappings "utilities"

/-- The remark about a listed command whose record gives another name.  A record that
cannot be loaded or is empty gives none. -/
def mismatch? (w : Workflow) (tree : FileTree) (entry : Mapping) : Option Remark :=
  let name := entry.text "command"
  let definition := entry.text "definition"
  let file := w.resolve definition
  if definition = "" || !tree.isFile file then none
  else
    match w.loadRecord tree file with
    | .error _ => none
    | .ok record =>
      let declared := record.text "command"
      if record.isEmpty || declared = name then none
      else
        some (blocking ("Manifest command '" ++ name ++
          "' doesn't match definition command '" ++ declared ++ "' in " ++ definition))

/-! ## The manifest -/

/-- The phases of a manifest, or what is wrong with them as a whole. -/
def phasesOf (manifest : Mapping) : Except String Mapping :=
  match manifest.present? "phases" with
  | none | some (.map []) | some (.list []) => .error "No phases defined in manifest"
  | some (.map entries) => .ok ⟨entries⟩
  | some _ => .error "'phases' must be a mapping"

/-- Remarks about a manifest that could be loaded. -/
def manifestRemarks (w : Workflow) (tree : FileTree) (manifest : Mapping) : List Remark :=
  match phasesOf manifest with
  | .error message => [blocking message]
  | .ok phases =>
    let (inPhases, registry) := phasesRemarks w tree phases phases.entries .empty
    let (utilities, _) :=
      listRemarks w tree "Utility" (manifest.mappings "utilities") registry
    inPhases ++ utilities ++ cycleRemarks phases ++
      (listedCommands manifest phases).filterMap (mismatch? w tree)

/-- The remark about a manifest that could not be loaded. -/
def manifestErrorRemark : RecordError → Remark
  | .empty => blocking "Manifest is empty"
  | .unreadable reason => blocking ("Cannot read manifest: " ++ reason.message)
  | .parse reason => blocking ("YAML parse error: " ++ reason.message)

/-- The issues about the manifest of a workflow. -/
def manifestIssues (w : Workflow) (tree : FileTree) : List Issue :=
  let label := w.relative w.manifest
  if !tree.pathExists w.manifest then
    [⟨manifestScope, manifestCheck, .error, "Manifest file not found: " ++ label, none⟩]
  else
    let remarks := match w.loadRecord tree w.manifest with
      | .ok manifest => manifestRemarks w tree manifest
      | .error reason => [manifestErrorRemark reason]
    remarks.map fun (severity, message) =>
      ⟨manifestScope, manifestCheck, severity, message, some label⟩

end SkillLint.Workflow
