import SkillLint.CommandLine.Request
import SkillLint.Config.Load
import SkillLint.Markdown.Render
import SkillLint.Report.Table
import SkillLint.Report.View

/-!
# Executing a command line

`execute` answers a command line in a tree and an environment with an `Outcome`: what is
written, and the exit code.  The code is zero if nothing was found that counts against the
project, which is an error for `validate` and any issue for `markdown`; a failed run has
the code one, a command line that cannot be understood the code two.
-/

namespace SkillLint.CommandLine

/-- The name of the program. -/
def programName : String := "skillcheck"

/-- The version of the program. -/
def programVersion : String := "0.1.0"

/-- How to use the program. -/
def usageText : String :=
  "Usage: skillcheck [-q] [-v] [--config FILE] COMMAND\n\n" ++
    "  validate [--check yaml|references|workflows] [--skill NAME] [--format table|json]\n" ++
    "           [--skills-dir DIR] [--root DIR] [--parser auto|full|fallback]\n" ++
    "  markdown [--format text|json] [PATH]\n"

/-- What a command line leads to. -/
structure Outcome where
  exitCode : Nat
  output : String
  errors : String
  deriving Repr, DecidableEq

/-- A text written as a line, and the exit code for a finding. -/
def Outcome.ofText (text : String) (found : Bool) : Outcome :=
  ⟨if found then 1 else 0, text ++ "\n", ""⟩

/-- An error as a JSON object. -/
def errorJson (e : RunError) : Json :=
  .obj [("code", .str e.code.text), ("error", .bool true), ("message", .str e.message),
    ("suggestion", .str e.code.suggestion)]

/-- The outcome of a failed run. -/
def Outcome.ofError (json : Bool) (e : RunError) : Outcome :=
  if json then ⟨1, (errorJson e).compact ++ "\n", ""⟩
  else ⟨1, "", "Error: " ++ e.message ++ "\n"⟩

/-- The outcome of a command line that is no request. -/
def Refusal.outcome : Refusal → Outcome
  | .usage => ⟨2, "", usageText⟩
  | .help => ⟨0, usageText, ""⟩
  | .version none => ⟨0, programName ++ " " ++ programVersion ++ "\n", ""⟩
  | .version (some command) =>
    ⟨0, programName ++ "-" ++ command ++ " " ++ programVersion ++ "\n", ""⟩

/-- The run that the options ask for; what they do not say, the configuration does. -/
def ValidateOptions.run (options : ValidateOptions) (root : Path) (config : Config) : Run :=
  { Run.ofConfig root config with
    paths := { config.paths with
      skillsDir := (options.skillsDir.map Path.text).getD config.paths.skillsDir }
    parser := (options.parser.getD config.parser).parser
    focus := options.focus
    skill := options.skill }

/-- The report that the options ask for. -/
def ValidateOptions.report (tree : FileTree) (env : Environment) (config : Option Path)
    (options : ValidateOptions) : Except RunError Report := do
  let root := options.root.getD ⟨"."⟩
  let config ← Config.load tree env config root
  (options.run root config).report tree

/-- The text of a report. -/
def ReportFormat.render : ReportFormat → Report → String
  | table, r => r.renderTable false
  | json, r => r.renderJson

/-- The text of an answer to a markdown scan. -/
def ScanFormat.render : ScanFormat → List Markdown.Issue → String
  | text, issues => Markdown.renderText issues
  | json, issues => Markdown.renderJson issues

/-- The outcome of a request. -/
def Request.execute (tree : FileTree) (env : Environment) (request : Request) : Outcome :=
  let outcome : Except RunError Outcome :=
    match request with
    | .validate config options => do
      let report ← options.report tree env config
      return .ofText ((options.format.getD .table).render report) report.hasErrors
    | .markdown options => do
      let issues ← Markdown.scanPath tree (options.path.getD ⟨Schema.skillsDir⟩)
      return .ofText ((options.format.getD .text).render issues) !issues.isEmpty
  match outcome with
  | .ok outcome => outcome
  | .error e => .ofError request.wantsJson e

/-- The outcome of a command line. -/
def execute (tree : FileTree) (env : Environment) (words : List String) : Outcome :=
  match Request.ofWords words with
  | .ok request => request.execute tree env
  | .error refusal => refusal.outcome

end SkillLint.CommandLine
