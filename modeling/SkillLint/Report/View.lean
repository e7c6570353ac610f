import SkillLint.Json
import SkillLint.Report.Basic

/-!
# Reports as JSON

The JSON form of a report: all its parts, the two flags of every skill, and a summary
with the totals and the verdict.
-/

namespace SkillLint

/-- An issue as an object; an issue without file has the file null. -/
def Issue.toJson (i : Issue) : Json :=
  .obj [("skill", .str i.scope), ("check", .str i.check), ("severity", .str i.severity.text),
    ("message", .str i.message), ("file", (i.file.map Json.str).getD .null)]

/-- A list of issues as an array. -/
def Issue.listToJson (issues : List Issue) : Json := .arr (issues.map Issue.toJson)

/-- The issues of a skill with its two flags. -/
def SkillResult.toJson (r : SkillResult) : Json :=
  .obj [("skill", .str r.skill), ("issues", Issue.listToJson r.issues),
    ("has_errors", .bool r.hasErrors), ("has_warnings", .bool r.hasWarnings)]

namespace Report

/-- The totals and the verdict. -/
def summaryJson (r : Report) : Json :=
  .obj [("total_skills", .num r.results.length), ("total_errors", .num r.totalErrors),
    ("total_warnings", .num r.totalWarnings), ("has_errors", .bool r.hasErrors)]

/-- The report as an object. -/
def toJson (r : Report) : Json :=
  .obj [("results", .arr (r.results.map SkillResult.toJson)),
    ("count_issues", Issue.listToJson r.countIssues),
    ("workflow_issues", Issue.listToJson r.workflowIssues), ("summary", r.summaryJson)]

/-- The report as a JSON text. -/
def renderJson (r : Report) : String := r.toJson.pretty

end Report

end SkillLint
