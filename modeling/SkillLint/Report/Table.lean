import SkillLint.Report.Basic

/-!
# Reports for reading

The report as a text in sections: the issues of every skill that has some, those of the
workflow, those of the counts, and a summary with the verdict.  With colour, titles,
icons and the verdict are painted by the escape sequences of a terminal; the words are
the same with and without.
-/

namespace SkillLint

/-- How a terminal paints a text. -/
inductive Paint where
  | bold
  | boldRed
  | yellow
  | boldGreen
  deriving Repr, DecidableEq

namespace Paint

/-- The code between the escape and its end. -/
def code : Paint → String
  | bold => "1"
  | boldRed => "1;31"
  | yellow => "33"
  | boldGreen => "1;32"

/-- The text, painted if colour is wanted. -/
def apply (p : Paint) (color : Bool) (text : String) : String :=
  if color then "\x1b[" ++ p.code ++ "m" ++ text ++ "\x1b[0m" else text

end Paint

namespace Report

/-- A line of one character, eighty wide. -/
def ruleLine (c : Char) : String := String.ofList (List.replicate 80 c)

/-- The word for a severity, five wide. -/
def icon (color : Bool) : Severity → String
  | .error => Paint.boldRed.apply color "ERROR"
  | .warning => Paint.yellow.apply color "WARN "

/-- The file of an issue in parentheses, if it has one. -/
def fileSuffix (i : Issue) : String :=
  match i.file with
  | some file => " (" ++ file ++ ")"
  | none => ""

/-- A title between two lines. -/
def banner (color : Bool) (title : String) : List String :=
  [ruleLine '=', Paint.bold.apply color title, ruleLine '=']

/-- A title above a line. -/
def heading (color : Bool) (title : String) : List String :=
  [Paint.bold.apply color title, ruleLine '-']

/-- The lines of a skill. -/
def skillLines (color : Bool) (r : SkillResult) : List String :=
  ("\n  " ++ r.skill ++ ":") :: r.issues.map fun i =>
    "    [" ++ icon color i.severity ++ "] " ++ i.check ++ ": " ++ i.message ++ fileSuffix i

/-- The section of the skills with issues, if there are any. -/
def skillSection (color : Bool) (results : List SkillResult) : List String :=
  let withIssues := results.filter (!·.issues.isEmpty)
  if withIssues.isEmpty then []
  else heading color "SKILL ISSUES:" ++ withIssues.flatMap (skillLines color)

/-- The line of a workflow issue, with its scope in brackets. -/
def workflowLine (color : Bool) (i : Issue) : String :=
  let scope := if i.scope = "" then "" else "[" ++ i.scope ++ "] "
  "  [" ++ icon color i.severity ++ "] " ++ scope ++ i.check ++ ": " ++ i.message ++ fileSuffix i

/-- The line of an issue about counts. -/
def countLine (color : Bool) (i : Issue) : String :=
  "  [" ++ icon color i.severity ++ "] " ++ i.message ++ fileSuffix i

/-- A section of issues after an empty line, if there are any. -/
def issueSection (color : Bool) (title : String) (line : Bool → Issue → String)
    (issues : List Issue) : List String :=
  if issues.isEmpty then [] else "" :: heading color title ++ issues.map (line color)

/-- The verdict in words. -/
def status (color : Bool) (r : Report) : String :=
  if r.hasErrors then Paint.boldRed.apply color "STATUS: FAILED (errors found)"
  else if r.totalWarnings > 0 then Paint.yellow.apply color "STATUS: PASSED (with warnings)"
  else Paint.boldGreen.apply color "STATUS: PASSED"

/-- The totals and the verdict. -/
def summaryLines (color : Bool) (r : Report) : List String :=
  "" :: banner color "SUMMARY" ++
    ["  Skills validated: " ++ toString r.results.length,
      "  Total errors:     " ++ toString r.totalErrors,
      "  Total warnings:   " ++ toString r.totalWarnings,
      "",
      "  " ++ status color r,
      ""]

/-- The report as a text. -/
def renderTable (color : Bool) (r : Report) : String :=
  "\n".intercalate
    (banner color "SKILL VALIDATION REPORT" ++ [""] ++
      skillSection color r.results ++
      issueSection color "WORKFLOW ISSUES:" workflowLine r.workflowIssues ++
      issueSection color "COUNT CONSISTENCY ISSUES:" countLine r.countIssues ++
      summaryLines color r)

end Report

end SkillLint
