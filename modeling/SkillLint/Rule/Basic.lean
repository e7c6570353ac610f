import SkillLint.Report.Basic
import SkillLint.Skill

/-!
# Rules for skills

A `Rule` inspects one skill in a tree and answers issues.  The rules of the category
`yaml` look at the document of the skill, those of the category `references` at its
reference documents.  A rule never fails: what is missing or malformed is an issue of
the rule `yaml`, and the other rules about the document then have nothing to say.

`Rule.run` applies rules in their order.  A run with a rule of the category `yaml`
reads the document, so the skill that the run leaves has the outcome kept.
-/

namespace SkillLint

/-- What a rule looks at. -/
inductive Category where
  | yaml
  | references
  deriving Repr, DecidableEq

/-- The word for a category. -/
def Category.text : Category → String
  | .yaml => "yaml"
  | .references => "references"

/-- The limits that a project may set. -/
structure Limits where
  minBodyLines : Nat
  maxBodyLines : Nat
  maxDescriptionChars : Nat
  markerScanLines : Nat
  deriving Repr, DecidableEq

/-- The limits, unless configured. -/
def Limits.default : Limits := ⟨80, 100, 1024, 10⟩

/-- What a rule says about a file. -/
structure Finding where
  severity : Severity
  message : String
  deriving Repr, DecidableEq

namespace Finding

/-- A finding that blocks. -/
def error (message : String) : Finding := ⟨.error, message⟩

/-- A finding that advises. -/
def warning (message : String) : Finding := ⟨.warning, message⟩

/-- The issue that the finding of a rule makes for a skill. -/
def toIssue (f : Finding) (skill : Skill) (rule : String) (file : Path) : Issue :=
  ⟨skill.id, rule, f.severity, f.message, some file.text⟩

end Finding

/-- A named check of one skill. -/
structure Rule where
  name : String
  category : Category
  check : FileTree → Skill → List Issue

namespace Rule

/-- A rule about the document of a skill, silent where the document could not be
read. -/
def onDocument (name : String) (findings : FileTree → Skill → Document → List Finding) :
    Rule where
  name := name
  category := .yaml
  check tree skill :=
    match skill.document? tree with
    | none => []
    | some doc => (findings tree skill doc).map (·.toIssue skill name doc.path)

/-- Applies rules to a skill, in their order. -/
def issues (rules : List Rule) (tree : FileTree) (skill : Skill) : List Issue :=
  rules.flatMap fun rule => rule.check tree skill

/-- Applies rules to a skill, and answers the skill as the run leaves it too. -/
def run (rules : List Rule) (tree : FileTree) (skill : Skill) : List Issue × Skill :=
  (issues rules tree skill,
    if rules.any (·.category = .yaml) then skill.loaded tree else skill)

end Rule

end SkillLint
