import SkillLint.FileTree.Walk
import SkillLint.Report.Basic
import SkillLint.Schema.Layout
import SkillLint.Text.Blank
import SkillLint.Text.Digit
import SkillLint.Text.Search
import SkillLint.Text.Word

/-!
# Advertised counts

Some files of a project advertise how many skills and reference documents it has.
`TreeCounts.scan` counts them in the tree, and `countIssues` compares: for every file and
every pattern, the first number that differs from the count is an issue.

A pattern is a run of decimal digits and a **tail** of words after it.  The numbers of a
pattern are the runs before its tail, from left to right; a run that is no numeral of
sixty-four bits is passed over.
-/

namespace SkillLint

open SkillLint.Text

/-- The numbers of skills and of reference documents. -/
structure TreeCounts where
  skills : Nat
  references : Nat
  deriving Repr, DecidableEq

namespace TreeCounts

/-- The entries of the directory that are directories with a skill document. -/
def skillDirs (tree : FileTree) (skillsDir : Path) : List Path :=
  match tree.list skillsDir with
  | .error _ => []
  | .ok entries =>
    entries.filter fun p => tree.isDir p && tree.pathExists (p.join Schema.skillFile)

/-- The path is named like a markdown document, directly in a directory of references. -/
def isReference (p : Path) : Bool :=
  p.extension? == some "md" && p.parent?.bind Path.fileName? == some Schema.referencesDir

/-- Counts skills and reference documents at and below a directory. -/
def scan (tree : FileTree) (skillsDir : Path) : TreeCounts where
  skills := (skillDirs tree skillsDir).length
  references := (tree.walk skillsDir).countP fun (p, _) => isReference p

end TreeCounts

namespace Counts

/-- The scope of issues about counts. -/
def scope : String := "__counts__"

/-- The name of the check. -/
def check : String := "count-consistency"

/-- The words after the number in a pattern. -/
abbrev Tail := List Char → Bool

/-- The runs of decimal digits before the tail, from left to right.  The first argument is
the run before the text, its last digit first. -/
def runsBefore (tail : Tail) : List Char → List Char → List (List Char)
  | _, [] => []
  | run, c :: rest =>
    if isDecimalDigit c then runsBefore tail (c :: run) rest
    else if !run.isEmpty && tail (c :: rest) then run.reverse :: runsBefore tail [] rest
    else runsBefore tail [] rest

/-- The word for skills, in any case. -/
def startsWithSkills (s : List Char) : Bool := (dropWord? "skills".toList s).isSome

/-- Blanks and the word for skills. -/
def skillsTail : Tail := fun s => startsWithSkills (s.dropWhile isBlank)

/-- Blanks and the word for skills, which may be called specialized. -/
def specializedSkillsTail : Tail := fun s =>
  let s := s.dropWhile isBlank
  ((dropWord? "specialized".toList s).bind dropBlanks?).any startsWithSkills ||
    startsWithSkills s

/-- The word with a small or a capital first letter. -/
def dropTitled? (first : Char) (rest s : List Char) : Option (List Char) :=
  match s with
  | c :: s => if c == first || c == first.toUpper then dropPrefix? rest s else none
  | [] => none

/-- Blanks and the words for reference files, with or without blanks between them. -/
def referencesTail : Tail := fun s =>
  match dropTitled? 'r' "eference".toList (s.dropWhile isBlank) with
  | some s => (dropTitled? 'f' "iles".toList (s.dropWhile isBlank)).isSome
  | none => false

/-- The first number of a pattern that differs from the count. -/
def firstMismatch? (tail : Tail) (text : String) (actual : Nat) : Option Nat :=
  ((runsBefore tail [] text.toList).filterMap fun run => (readUnsigned run).toOption).find?
    (· ≠ actual)

/-- The issue about a pattern in a file, if a number differs. -/
def patternIssues (file : Path) (text : String) (what : String) (tail : Tail) (actual : Nat) :
    List Issue :=
  (firstMismatch? tail text actual).toList.map fun found =>
    ⟨scope, check, .warning,
      what ++ " count mismatch: file says " ++ toString found ++ ", actual is " ++ toString actual,
      some file.text⟩

/-- The issues about one file.  Both patterns for skills are compared. -/
def fileIssues (counts : TreeCounts) (file : Path) (text : String) : List Issue :=
  patternIssues file text "Skill" specializedSkillsTail counts.skills ++
    patternIssues file text "Skill" skillsTail counts.skills ++
    patternIssues file text "Reference" referencesTail counts.references

/-- The issues about the counts that a project advertises.  A file that cannot be read
advertises nothing. -/
def issues (tree : FileTree) (root skillsDir : Path) : List Issue :=
  let counts := TreeCounts.scan tree skillsDir
  Schema.countFiles.flatMap fun name =>
    let file := root.join name
    match tree.readText file with
    | .ok text => fileIssues counts file text
    | .error _ => []

end Counts

end SkillLint
