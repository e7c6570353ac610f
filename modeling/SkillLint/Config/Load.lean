import SkillLint.Config.Basic
import SkillLint.Text.Blank
import SkillLint.Toml.Document

/-!
# Loading a configuration

`Config.load` lays the variables of the environment over a file, and the file over the
defaults.  The file is the one that the caller names, else the one that the environment
names, and both have to exist; else it is the file of the project, which need not.
-/

namespace SkillLint

/-- Variables with their values. -/
abbrev Environment := List (String × String)

namespace Toml

mutual

/-- The setting that a value is. -/
def Value.toSetting : Value → Setting
  | .string text => .text (String.ofList text)
  | .integer value =>
    match value with
    | .ofNat n => .number n
    | .negSucc _ => .other
  | .array items => .list (settingsOfItems items)
  | .table _ entries => .group (settingsOfEntries entries)
  | .tables elements => .list (settingsOfTables elements).reverse
  | .date => .date
  | .outOfRange => .outOfRange
  | .float | .boolean _ => .other

/-- The settings of the items of an array. -/
def settingsOfItems : List Value → List Setting
  | [] => []
  | v :: rest => v.toSetting :: settingsOfItems rest

/-- The settings of the entries of a table. -/
def settingsOfEntries : List (List Char × Value) → List (String × Setting)
  | [] => []
  | (key, v) :: rest => (String.ofList key, v.toSetting) :: settingsOfEntries rest

/-- The settings of tables. -/
def settingsOfTables : List (List (List Char × Value)) → List Setting
  | [] => []
  | entries :: rest => .group (settingsOfEntries entries) :: settingsOfTables rest

end

/-- The setting that a document is. -/
def Table.toSetting (t : Table) : Setting := .group (settingsOfEntries t.entries)

end Toml

namespace Config

/-- The configuration file of a project, in its root. -/
def fileName : String := "skillcheck.toml"

/-- The diagnosis of a file that is malformed, or holds a value of the wrong kind.  A
report says so and leaves the place to an editor. -/
def fileDetail : String := "<toml>"

/-- The variable that names a configuration file. -/
def fileVariable : String := "SKILLCHECK_CONFIG"

/-- The variable for the directory of skills. -/
def skillsDirVariable : String := "SKILLCHECK_SKILLS_DIR"

/-- The variable for the directory of commands. -/
def commandsDirVariable : String := "SKILLCHECK_COMMANDS_DIR"

/-- The variable for the choice of the parser. -/
def parserVariable : String := "SKILLCHECK_PARSER"

/-- The variable for the least number of body lines. -/
def minLinesVariable : String := "SKILLCHECK_MIN_LINES"

/-- The variable for the greatest number of body lines. -/
def maxLinesVariable : String := "SKILLCHECK_MAX_LINES"

/-- The variables that matter to a configuration. -/
def variableNames : List String :=
  [fileVariable, skillsDirVariable, commandsDirVariable, parserVariable, minLinesVariable,
    maxLinesVariable]

/-- The file to read.  The file of the project may be missing. -/
def file? (tree : FileTree) (env : Environment) (explicit : Option Path) (root : Path) :
    Except RunError (Option Path) :=
  match explicit.or ((env.lookup fileVariable).map Path.mk) with
  | some p =>
    if tree.pathExists p then .ok (some p)
    else .error (.config ("config file not found: " ++ p.text))
  | none =>
    let p := root.join fileName
    .ok (if tree.pathExists p then some p else none)

/-- The patch in a file. -/
def readFile (tree : FileTree) (p : Path) : Except RunError Patch :=
  match tree.readText p with
  | .error reason => .error (.config ("read config " ++ p.text ++ ": " ++ reason.message))
  | .ok text =>
    match (Toml.parse? text.toList).bind fun t => Patch.read? .toml t.toSetting with
    | some patch => .ok patch
    | none => .error (.config ("parse config " ++ p.text ++ ": " ++ fileDetail))

/-- The choice of a parser that a name means. -/
def parserOfName (name : String) : Except RunError ParserChoice :=
  match ParserChoice.ofLooseName name with
  | .ok choice => .ok choice
  | .error other =>
    .error (.config ("invalid parser " ++ other ++ " (expected auto|full|fallback)"))

/-- The number in a variable; blanks around it do not count. -/
def readNumber (env : Environment) (key : String) : Except RunError (Option Nat) :=
  match env.lookup key with
  | none => .ok none
  | some value =>
    match Text.readUnsigned (Text.trim value.toList) with
    | .ok n => .ok (some n)
    | .error reason =>
      .error (.config ("invalid " ++ key ++ " value " ++ value ++ ": " ++ reason.message))

/-- The choice of a parser in a variable. -/
def readParser (env : Environment) : Except RunError (Option ParserChoice) :=
  match env.lookup parserVariable with
  | none => .ok none
  | some name => (parserOfName name).map some

/-- The patch in the environment. -/
def readEnvironment (env : Environment) : Except RunError Patch := do
  return { Patch.empty with
    skillsDir := env.lookup skillsDirVariable
    commandsDir := env.lookup commandsDirVariable
    parser := ← readParser env
    minBodyLines := ← readNumber env minLinesVariable
    maxBodyLines := ← readNumber env maxLinesVariable }

/-- The configuration of the project at a root. -/
def load (tree : FileTree) (env : Environment) (explicit : Option Path) (root : Path) :
    Except RunError Config := do
  let filePatch ← match ← file? tree env explicit root with
    | some p => readFile tree p
    | none => pure .empty
  let envPatch ← readEnvironment env
  (envPatch.or filePatch).toConfig.validate

end Config

end SkillLint
