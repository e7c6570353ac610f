/-!
# Issues and reports

An `Issue` is one finding of a rule: an error blocks, a warning advises.  A `Report`
collects the issues of every skill that was checked, those about advertised counts and
those about the workflow.  The verdict of a report is `hasErrors`: one error anywhere.
-/

namespace SkillLint

/-- How much an issue weighs. -/
inductive Severity where
  | error
  | warning
  deriving Repr, DecidableEq

/-- The word for the weight. -/
def Severity.text : Severity → String
  | .error => "error"
  | .warning => "warning"

/-- The severity with the word. -/
def Severity.ofText? : String → Option Severity
  | "error" => some .error
  | "warning" => some .warning
  | _ => none

/-- A finding.  Its scope is the name of a skill, or a label for what it is about. -/
structure Issue where
  scope : String
  check : String
  severity : Severity
  message : String
  file : Option String
  deriving Repr, DecidableEq

namespace Issue

/-- The issue blocks. -/
def isError (i : Issue) : Bool := i.severity = .error

end Issue

/-- The issues of one skill. -/
structure SkillResult where
  skill : String
  issues : List Issue
  deriving Repr, DecidableEq

namespace SkillResult

/-- One of the issues is an error. -/
def hasErrors (r : SkillResult) : Bool := r.issues.any (·.isError)

/-- One of the issues is a warning. -/
def hasWarnings (r : SkillResult) : Bool := r.issues.any (!·.isError)

end SkillResult

/-- Everything that a run found. -/
structure Report where
  results : List SkillResult
  countIssues : List Issue
  workflowIssues : List Issue
  deriving Repr, DecidableEq

namespace Report

/-- The issues of all sections, one after another. -/
def allIssues (r : Report) : List Issue :=
  r.results.flatMap (·.issues) ++ r.countIssues ++ r.workflowIssues

/-- The number of errors. -/
def totalErrors (r : Report) : Nat := r.allIssues.countP (·.isError)

/-- The number of warnings. -/
def totalWarnings (r : Report) : Nat := r.allIssues.countP (!·.isError)

/-- There is an error. -/
def hasErrors (r : Report) : Bool := r.allIssues.any (·.isError)

end Report

end SkillLint
