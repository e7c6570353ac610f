import SkillLint.Rule.Basic
import SkillLint.Text.Lines

/-!
# Rules about the references

A skill has a directory of reference documents; the directory holds at least one
document; and no document has one of the old marker phrases near its top.
-/

namespace SkillLint.Rule

open SkillLint.Text

/-- The entries of a directory that are named like markdown documents, in the order of
their names. -/
def markdownEntries (tree : FileTree) (dir : Path) : List Path :=
  match tree.list dir with
  | .error _ => []
  | .ok entries => Path.sort (entries.filter fun p => p.extension? == some "md")

/-- There is a directory of references. -/
def referencesDirectory : Rule where
  name := "references-directory"
  category := .references
  check tree skill :=
    let dir := skill.referencesPath
    if !tree.pathExists dir then
      [(Finding.error "Missing references/ directory").toIssue skill "references-directory" dir]
    else if !tree.isDir dir then
      [(Finding.error "'references' exists but is not a directory").toIssue skill
        "references-directory" dir]
    else []

/-- The directory of references holds a document. -/
def referenceCount : Rule where
  name := "reference-file-count"
  category := .references
  check tree skill :=
    let dir := skill.referencesPath
    if tree.isDir dir && (markdownEntries tree dir).isEmpty then
      [(Finding.warning "No reference files found in references/").toIssue skill
        "reference-file-count" dir]
    else []

/-- The first `count` lines of a text. -/
def topLines (count : Nat) (text : String) : List Char :=
  joinLines ((splitLines text.toList).take count)

/-- The marker phrases in a text. -/
def markersIn (text : List Char) : List String :=
  Schema.nonStandardMarkers.filter fun marker => occursIn marker.toList text

/-- What there is to say about one reference document. -/
def markerFindings (scanLines : Nat) : Except ReadError String → List Finding
  | .error reason => [.error ("Cannot read reference file: " ++ reason.message)]
  | .ok text =>
    match markersIn (topLines scanLines text) with
    | [] => []
    | markers =>
      let quoted := markers.map fun marker => "'" ++ marker ++ "'"
      [.error ("Has non-standard headers (" ++ ", ".intercalate quoted ++ ") - must be removed")]

/-- No reference document has a marker phrase in its first lines. -/
def nonStandardHeaders (scanLines : Nat) : Rule where
  name := "non-standard-headers"
  category := .references
  check tree skill :=
    let dir := skill.referencesPath
    if tree.isDir dir then
      (markdownEntries tree dir).flatMap fun file =>
        (markerFindings scanLines (tree.readText file)).map
          (·.toIssue skill "non-standard-headers" file)
    else []

end SkillLint.Rule
