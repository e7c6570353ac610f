import SkillLint.Json
import SkillLint.Markdown.Scan

/-!
# Reports of markdown scans

The issues of a scan as a text grouped by kind, and as a JSON array.
-/

namespace SkillLint.Markdown

/-- An issue on one line. -/
def Issue.display (i : Issue) : String :=
  i.file.text ++ ":" ++ toString i.line ++ ": [" ++ i.kind.text ++ "] " ++ i.message

/-- The lines of the issues of a kind, if there are any. -/
def kindLines (issues : List Issue) (kind : IssueKind) : List String :=
  let group := issues.filter (·.kind = kind)
  if group.isEmpty then []
  else
    ("\n" ++ kind.title ++ " (" ++ toString group.length ++ " issues):") ::
      group.map fun i => "  " ++ i.display

/-- The issues as a text, grouped by kind. -/
def renderText (issues : List Issue) : String :=
  if issues.isEmpty then "No markdown issues found."
  else
    "\n".intercalate
      (IssueKind.all.flatMap (kindLines issues) ++
        ["\nTotal: " ++ toString issues.length ++ " issues found"])

/-- An issue as an object. -/
def Issue.toJson (i : Issue) : Json :=
  .obj [("file", .str i.file.text), ("line", .num i.line), ("type", .str i.kind.text),
    ("message", .str i.message)]

/-- The issues as a JSON text. -/
def renderJson (issues : List Issue) : String := (Json.arr (issues.map Issue.toJson)).pretty

end SkillLint.Markdown
