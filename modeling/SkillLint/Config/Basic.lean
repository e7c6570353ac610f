import SkillLint.Config.Setting
import SkillLint.Rule.Basic
import SkillLint.RunError
import SkillLint.Text.Digit
import SkillLint.Workflow.Context

/-!
# Configurations

A `Config` says where a project keeps its parts, which parser reads headers and records,
and which limits the rules apply.  It comes about in layers: a `Patch` gives some of the
fields, the patch above has the first say (`Patch.or`), and a field that no patch gives
has its default (`Patch.toConfig`).

A patch is read from a setting by `Patch.read?`.  A field of another name is passed over,
and a value of the wrong kind spoils the whole.

A configuration that a run may use is `valid`: its window of body lines is not empty.
-/

namespace SkillLint

/-- How a project is to be checked. -/
structure Config where
  paths : ProjectPaths
  parser : ParserChoice
  limits : Limits
  deriving Repr, DecidableEq

namespace Config

/-- Some of the fields of a configuration. -/
structure Patch where
  skillsDir : Option String
  commandsDir : Option String
  manifest : Option String
  parser : Option ParserChoice
  minBodyLines : Option Nat
  maxBodyLines : Option Nat
  maxDescriptionChars : Option Nat
  markerScanLines : Option Nat
  deriving Repr, DecidableEq

namespace Patch

/-- No field. -/
def empty : Patch := ⟨none, none, none, none, none, none, none, none⟩

/-- Two layers as one.  The first one has the first say. -/
def or (p q : Patch) : Patch where
  skillsDir := p.skillsDir.or q.skillsDir
  commandsDir := p.commandsDir.or q.commandsDir
  manifest := p.manifest.or q.manifest
  parser := p.parser.or q.parser
  minBodyLines := p.minBodyLines.or q.minBodyLines
  maxBodyLines := p.maxBodyLines.or q.maxBodyLines
  maxDescriptionChars := p.maxDescriptionChars.or q.maxDescriptionChars
  markerScanLines := p.markerScanLines.or q.markerScanLines

/-- The paths that the patch leads to. -/
def toPaths (p : Patch) : ProjectPaths where
  skillsDir := p.skillsDir.getD ProjectPaths.default.skillsDir
  commandsDir := p.commandsDir.getD ProjectPaths.default.commandsDir
  manifest := p.manifest.getD ProjectPaths.default.manifest

/-- The limits that the patch leads to. -/
def toLimits (p : Patch) : Limits where
  minBodyLines := p.minBodyLines.getD Limits.default.minBodyLines
  maxBodyLines := p.maxBodyLines.getD Limits.default.maxBodyLines
  maxDescriptionChars := p.maxDescriptionChars.getD Limits.default.maxDescriptionChars
  markerScanLines := p.markerScanLines.getD Limits.default.markerScanLines

/-- The configuration that the patch leads to. -/
def toConfig (p : Patch) : Config := ⟨p.toPaths, p.parser.getD .auto, p.toLimits⟩

/-! ## Reading settings -/

/-- The paths that a setting gives. -/
def readPaths? (format : Setting.Format) (setting : Setting) : Option Patch := do
  let entries ← setting.entries? format ["skills_dir", "commands_dir", "manifest"]
  let text (key : String) := Setting.readIfGiven Setting.asText? (entries.lookup key)
  return { empty with
    skillsDir := ← text "skills_dir"
    commandsDir := ← text "commands_dir"
    manifest := ← text "manifest" }

/-- The choice of a parser that a setting gives. -/
def readParser? (format : Setting.Format) (setting : Setting) : Option Patch := do
  let entries ← setting.entries? format ["mode"]
  let choice := fun s => (Setting.asWord? format s).bind ParserChoice.ofName?
  return { empty with parser := ← Setting.readIfGiven choice (entries.lookup "mode") }

/-- The limits that a setting gives.  A limit is a number of sixty-four bits. -/
def readLimits? (format : Setting.Format) (setting : Setting) : Option Patch := do
  let entries ← setting.entries? format
    ["min_body_lines", "max_body_lines", "max_description_chars", "marker_scan_lines"]
  let number (key : String) :=
    Setting.readIfGiven (Setting.asNumber? Text.maxUnsigned) (entries.lookup key)
  return { empty with
    minBodyLines := ← number "min_body_lines"
    maxBodyLines := ← number "max_body_lines"
    maxDescriptionChars := ← number "max_description_chars"
    markerScanLines := ← number "marker_scan_lines" }

/-- The patch that a setting gives. -/
def read? (format : Setting.Format) (setting : Setting) : Option Patch := do
  let entries ← setting.entries? format ["paths", "parser", "limits"]
  let part (key : String) (read : Setting → Option Patch) :=
    (Setting.readIfGiven read (entries.lookup key)).map (·.getD empty)
  let paths ← part "paths" (readPaths? format)
  let parser ← part "parser" (readParser? format)
  let limits ← part "limits" (readLimits? format)
  return paths.or (parser.or limits)

end Patch

/-- The configuration of a project that has none. -/
def default : Config := Patch.empty.toConfig

/-- The window of body lines is not empty. -/
def valid (config : Config) : Bool := config.limits.minBodyLines ≤ config.limits.maxBodyLines

/-- Refuses a configuration that is not valid. -/
def validate (config : Config) : Except RunError Config :=
  if config.valid then .ok config
  else
    .error (.config
      ("limits.min_body_lines (" ++ toString config.limits.minBodyLines ++
        ") exceeds limits.max_body_lines (" ++ toString config.limits.maxBodyLines ++ ")"))

/-- What is validated is as it was, and valid. -/
theorem valid_of_validate {config result : Config} (h : config.validate = .ok result) :
    result = config ∧ config.valid = true := by
  unfold validate at h
  split at h
  · exact ⟨(Except.ok.inj h).symm, ‹_›⟩
  · contradiction

end Config

end SkillLint
