import SkillLint.FileTree.Basic
import SkillLint.Header.Parser

/-!
# Errors of a run

What is wrong inside a skill or a record is an issue; a `RunError` is what keeps a run
from giving a report at all.  Every error has a code for machines, and a code comes with
a category and a suggestion.
-/

namespace SkillLint

/-- Why a run failed. -/
inductive RunError where
  /-- Reading failed; the text says how. -/
  | io (reason : String)
  | skillsDirNotFound (dir : Path)
  | skillNotFound (skill : String)
  | pathNotFound (path : Path)
  | config (reason : String)
  | json (reason : String)
  | parse (reason : ParseError)
  deriving Repr, DecidableEq

/-- The kinds of errors for machines. -/
inductive ErrorCode where
  | skillNotFound
  | skillsDirMissing
  | configInvalid
  | readError
  | serializationError
  | parseFailed
  deriving Repr, DecidableEq

namespace ErrorCode

/-- The number of the code; its hundreds are the category. -/
def number : ErrorCode → Nat
  | skillNotFound => 101
  | skillsDirMissing => 102
  | configInvalid => 302
  | readError => 601
  | serializationError => 605
  | parseFailed => 801

/-- The code as it is printed. -/
def text (c : ErrorCode) : String := "E" ++ toString c.number

/-- The name of the code. -/
def name : ErrorCode → String
  | skillNotFound => "UNIT_NOT_FOUND"
  | skillsDirMissing => "UNITS_DIR_MISSING"
  | configInvalid => "CONFIG_INVALID"
  | readError => "STORAGE_READ_ERROR"
  | serializationError => "SERIALIZATION_ERROR"
  | parseFailed => "PARSE_FAILED"

/-- What to do about the error. -/
def suggestion : ErrorCode → String
  | skillNotFound =>
    "Check the --skill value against the directory names under the skills directory"
  | skillsDirMissing => "Run from the project root or pass --skills-dir"
  | configInvalid =>
    "Fix the syntax in skillcheck.toml or the SKILLCHECK_* environment variables"
  | readError => "Check file permissions and that the path exists"
  | serializationError => "Report this output bug with the command that produced it"
  | parseFailed => "Check the YAML syntax of the reported file"

/-- What the error is about. -/
def category : ErrorCode → String
  | skillNotFound | skillsDirMissing => "skill"
  | configInvalid => "config"
  | readError | serializationError => "storage"
  | parseFailed => "validation"

end ErrorCode

namespace RunError

/-- The code of the error. -/
def code : RunError → ErrorCode
  | io _ | pathNotFound _ => .readError
  | skillsDirNotFound _ => .skillsDirMissing
  | skillNotFound _ => .skillNotFound
  | config _ => .configInvalid
  | json _ => .serializationError
  | parse _ => .parseFailed

/-- The wording of the error. -/
def message : RunError → String
  | io reason => "IO error: " ++ reason
  | skillsDirNotFound dir => "Skills directory not found: " ++ dir.text
  | skillNotFound skill => "Skill not found: " ++ skill
  | pathNotFound path => "Path does not exist: " ++ path.text
  | config reason => "Config error: " ++ reason
  | json reason => "JSON serialization error: " ++ reason
  | parse reason => "Parse error: " ++ reason.message

end RunError

end SkillLint
