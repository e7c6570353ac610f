import SkillLint.Schema.Vocabulary
import SkillLint.Text.Search
import SkillLint.Workflow.Context

/-!
# Records of commands

Every command has a record.  `recordFileIssues` judges one: its fields are declared, its
words come from their vocabularies, its phase fits the command, and the files that it
names exist.  All issues about a record carry its path.  `recordIssues` judges the
records of a workflow one after another, so that one record never hides another.
-/

namespace SkillLint.Workflow

open SkillLint.Text

/-- The name of the check. -/
def recordCheck : String := "workflow-definition"

/-- What there is to say about a record, before it is tied to the record. -/
abbrev Remark := Severity × String

/-- A remark that blocks. -/
def blocking (message : String) : Remark := (.error, message)

/-- A remark that advises. -/
def advisory (message : String) : Remark := (.warning, message)

/-- The text without the letters s at its end. -/
def withoutPlural (s : List Char) : List Char := (s.reverse.dropWhile (· == 's')).reverse

/-- The start of a command names its phase, in the singular or the plural. -/
def startFitsPhase (start phase : List Char) : Bool :=
  start == phase || withoutPlural start == withoutPlural phase

/-- The part of a command before its first colon. -/
def commandStart (command : String) : List Char := command.toList.takeWhile (· ≠ ':')

/-- The command belongs to a phase. -/
def isPhased (record : Mapping) : Bool := (record.text "command").toList.contains ':'

/-- Remarks about fields that are not declared. -/
def fieldRemarks (record : Mapping) : List Remark :=
  ((Schema.recordRequiredFields.filter (!record.contains ·)).map fun field =>
    blocking ("Missing required field: " ++ field)) ++
  (if isPhased record && !record.contains Schema.recordPhaseField then
    [blocking "Missing required field: phase (required for phased commands)"]
  else [])

/-- Remarks about the phase: a known one, and the one that the command starts with. -/
def phaseRemarks (record : Mapping) : List Remark :=
  let phase := record.text "phase"
  let start := commandStart (record.text "command")
  if phase = "" then []
  else
    (if Vocabulary.contains Phase phase then []
      else [advisory ("Non-standard phase: '" ++ phase ++ "'. Expected: " ++
        Vocabulary.expected Phase)]) ++
    (if isPhased record && !startFitsPhase start phase.toList then
      [advisory ("Command prefix '" ++ String.ofList start ++ "' doesn't match phase '" ++
        phase ++ "'")]
    else [])

/-- The status as it is written; without one a command is existing. -/
def statusText (record : Mapping) : String :=
  match record.present? "status" with
  | some v => v.display
  | none => Vocabulary.text CommandStatus.existing

/-- The status of the command, if it is a known one. -/
def status? (record : Mapping) : Option CommandStatus :=
  Vocabulary.parse? CommandStatus (statusText record)

/-- Remarks about the status: a known one. -/
def statusRemarks (record : Mapping) : List Remark :=
  match status? record with
  | some _ => []
  | none =>
    [advisory ("Unknown status: '" ++ statusText record ++ "'. Expected: " ++
      Vocabulary.expected CommandStatus)]

/-- Remarks about the files that the record names.  The document of a command has to
exist only if the command does. -/
def fileRemarks (w : Workflow) (tree : FileTree) (record : Mapping) : List Remark :=
  let path := record.text "path"
  let description := record.text "description"
  (if path ≠ "" && status? record == some .existing && !tree.pathExists (w.resolve path) then
    [blocking ("Command file not found: " ++ path)]
  else []) ++
  (if description ≠ "" && !tree.pathExists (w.resolve description) then
    [blocking ("Description file not found: " ++ description)]
  else [])

/-- Remarks about what the command requires: known capabilities. -/
def requirementRemarks (record : Mapping) : List Remark :=
  let required := ((record.get? "requires").bind Value.asList?).getD []
  (required.filter fun v => !v.asString?.any (Vocabulary.contains Capability)).map fun v =>
    advisory ("Unknown requires value: '" ++ v.display ++ "'. Expected: " ++
      Vocabulary.expected Capability)

/-- Remarks about one structured input or output, the entry at `index`. -/
def entryRemarks (label : String) (required : List String) (isKnownType : String → Bool)
    (entry : Mapping) (index : Nat) : List Remark :=
  let place := label ++ " [" ++ toString index ++ "] "
  let type := entry.text "type"
  ((required.filter (!entry.contains ·)).map fun field =>
    blocking (place ++ "missing field: " ++ field)) ++
  (if type ≠ "" && !isKnownType type then
    [advisory (place ++ "unknown type: '" ++ type ++ "'")]
  else [])

/-- Remarks about the inputs or outputs under a key; entries that are no mappings are
passed over, but count for the index. -/
def entriesRemarks (record : Mapping) (key label : String) (required : List String)
    (isKnownType : String → Bool) : List Remark :=
  let entries := ((record.get? key).bind Value.asList?).getD []
  entries.zipIdx.flatMap fun (value, index) =>
    match value.asMap? with
    | some entry => entryRemarks label required isKnownType entry index
    | none => []

/-- All remarks about a record. -/
def recordRemarks (w : Workflow) (tree : FileTree) (record : Mapping) : List Remark :=
  fieldRemarks record ++ phaseRemarks record ++ statusRemarks record ++
    fileRemarks w tree record ++ requirementRemarks record ++
    entriesRemarks record "inputs" "Input" Schema.inputRequiredFields
      (Vocabulary.contains InputType) ++
    entriesRemarks record "outputs" "Output" Schema.outputRequiredFields
      (Vocabulary.contains OutputType)

/-- The remark about a record that could not be loaded. -/
def recordErrorRemark : RecordError → Remark
  | .empty => blocking "YAML file is empty"
  | .unreadable reason => blocking ("Cannot read definition: " ++ reason.message)
  | .parse reason => blocking ("YAML parse error: " ++ reason.message)

/-- The issues about the record in a file. -/
def recordFileIssues (w : Workflow) (tree : FileTree) (file : Path) : List Issue :=
  let label := w.relative file
  let remarks := match w.loadRecord tree file with
    | .ok record => recordRemarks w tree record
    | .error reason => [recordErrorRemark reason]
  remarks.map fun (severity, message) => ⟨label, recordCheck, severity, message, some label⟩

/-- The issues about the records of a workflow. -/
def recordIssues (w : Workflow) (tree : FileTree) : List Issue :=
  if !tree.pathExists w.commandsDir then
    [⟨workflowScope, recordCheck, .error,
      "Commands directory not found: " ++ w.relative w.commandsDir, none⟩]
  else
    match w.recordFiles tree with
    | [] =>
      [⟨workflowScope, recordCheck, .warning, "No workflow definition YAML files found",
        none⟩]
    | files => files.flatMap (recordFileIssues w tree)

end SkillLint.Workflow
