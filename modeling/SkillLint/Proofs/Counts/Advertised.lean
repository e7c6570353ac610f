import Mathlib.Data.List.Forall2
import SkillLint.Proofs.Counts.Matches
import SkillLint.Proofs.FileTree.Names
import SkillLint.Proofs.Text.Numeral

/-!
# Advertised counts against the tree

A match says a number if its digits are a numeral of sixty-four bits, and what is reported about a
pattern is the first number, from left to right, that differs from the count (`FirstDifferent`).
There are two patterns for skills, and each match of the shorter one is a match of the longer one,
with the same number.  So **the issues about a file are one for each pattern at most, all of them
warnings, and the second pattern for skills has one only if the first does** (`Compares`).  The
answers about the files stand in the order of the files (`issues_eq_answers`).
-/

namespace SkillLint.Counts

open SkillLint.Text

/-- The number of the match, if it is one of sixty-four bits. -/
def Match.Says (m : Match) (n : Nat) : Prop := Writes m.number n ∧ n < Nat.pow 2 64

/-- What is found is the first number that differs from the count, and nothing if none does. -/
structure FirstDifferent (ms : List Match) (actual : Nat) (found : Option Nat) : Prop where
  none_iff : found = none ↔ ∀ m ∈ ms, ∀ n, m.Says n → n = actual
  some_iff : ∀ n, found = some n ↔ ∃ passed m after, ms = passed ++ m :: after ∧
    m.Says n ∧ n ≠ actual ∧ ∀ m' ∈ passed, ∀ n', m'.Says n' → n' = actual

/-- The issue about a number that differs. -/
def mismatch (what : String) (actual : Nat) (file : Path) (found : Nat) : Issue :=
  ⟨scope, check, .warning,
    what ++ " count mismatch: file says " ++ toString found ++ ", actual is " ++ toString actual,
    some file.text⟩

/-- The answer about a pattern in a file: an issue about the first number that differs among the
matches of the text, if one does. -/
def Reports (words : Language Char) (what : String) (actual : Nat) (file : Path) (text : String)
    (answer : List Issue) : Prop :=
  ∃ ms found, Finds words 0 text.toList ms ∧ FirstDifferent ms actual found ∧
    answer = found.toList.map (mismatch what actual file)

/-- The answers about the two patterns for skills and the one for reference documents in a file. -/
structure Compares (counts : TreeCounts) (file : Path) (text : String)
    (first second third : List Issue) : Prop where
  first_reports : Reports specializedSkillsWords "Skill" counts.skills file text first
  second_reports : Reports skillsWords "Skill" counts.skills file text second
  third_reports : Reports referenceWords "Reference" counts.references file text third
  /-- Each match of the second pattern is one of the first, at the same place and with the same
  number. -/
  matches_sublist : ∀ ms ms', Finds specializedSkillsWords 0 text.toList ms →
    Finds skillsWords 0 text.toList ms' → ms'.Sublist ms
  first_ne_nil : second ≠ [] → first ≠ []
  skills_le : first.length + second.length ≤ 2
  length_le : (first ++ second ++ third).length ≤ 3
  severity : ∀ issue ∈ first ++ second ++ third, issue.severity = .warning

/-- The answer about a file: nothing if it cannot be read. -/
inductive Answers (counts : TreeCounts) (file : Path) : Except ReadError String → List Issue → Prop
    where
  | unreadable (e : ReadError) : Answers counts file (.error e) []
  | read {text : String} {first second third : List Issue}
      (h : Compares counts file text first second third) :
      Answers counts file (.ok text) (first ++ second ++ third)

variable {words : Language Char} {tail : Tail} {ms : List Match} {m : Match} {what text : String}
  {actual : Nat} {file : Path} {answer : List Issue}

/-! ## One pattern -/

/-- The number that a match says, if it differs from the count. -/
def differing? (actual : Nat) (m : Match) : Option Nat :=
  (readUnsigned m.number).toOption.filter (· ≠ actual)

theorem differing?_eq_some_iff {n : Nat} :
    differing? actual m = some n ↔ m.Says n ∧ n ≠ actual := by
  rw [differing?, Option.filter_eq_some_iff, toOption_eq_some_iff, readUnsigned_eq_ok_iff,
    decide_eq_true_iff, Match.Says]

theorem differing?_eq_none_iff :
    differing? actual m = none ↔ ∀ n, m.Says n → n = actual := by
  rw [Option.eq_none_iff_forall_ne_some]
  refine forall_congr' fun n => ?_
  rw [Ne, differing?_eq_some_iff, not_and, not_not]

theorem firstMismatch?_eq (h : runsBefore tail [] text.toList = ms.map Match.number) :
    firstMismatch? tail text actual = ms.findSome? (differing? actual) := by
  rw [firstMismatch?, h, ← List.head?_filter, List.filterMap_map, List.filter_filterMap,
    List.head?_filterMap]
  rfl

theorem firstDifferent (h : runsBefore tail [] text.toList = ms.map Match.number) :
    FirstDifferent ms actual (firstMismatch? tail text actual) := by
  rw [firstMismatch?_eq h]
  refine ⟨?_, fun n => ?_⟩
  · rw [List.findSome?_eq_none_iff]
    exact forall₂_congr fun _ _ => differing?_eq_none_iff
  · rw [List.findSome?_eq_some_iff]
    simp only [differing?_eq_some_iff, differing?_eq_none_iff, and_assoc]

/-- The shorter pattern does not find the number that differs here. -/
example : firstMismatch? specializedSkillsTail "3 specialized skills, 4 SKILLS" 4 = some 3 ∧
    firstMismatch? skillsTail "3 specialized skills, 4 SKILLS" 4 = none := by decide

theorem reports_patternIssues (htells : Tells tail words) (hw : Definite words) :
    Reports words what actual file text (patternIssues file text what tail actual) := by
  obtain ⟨ms, hms⟩ := exists_finds hw 0 text.toList
  exact ⟨ms, _, hms, firstDifferent (runsBefore_eq htells hw hms), rfl⟩

theorem Reports.length_le_one (h : Reports words what actual file text answer) :
    answer.length ≤ 1 := by
  obtain ⟨ms, found, -, -, rfl⟩ := h
  cases found with
  | none => exact Nat.zero_le 1
  | some n => exact Nat.le_refl 1

theorem Reports.severity (h : Reports words what actual file text answer) :
    ∀ issue ∈ answer, issue.severity = .warning := by
  obtain ⟨ms, found, -, -, rfl⟩ := h
  intro issue hissue
  obtain ⟨n, -, rfl⟩ := List.mem_map.mp hissue
  rfl

/-- There is an answer if and only if a match says a number that differs. -/
theorem Reports.ne_nil_iff (hw : Definite words) (h : Reports words what actual file text answer)
    (hms : Finds words 0 text.toList ms) :
    answer ≠ [] ↔ ∃ m ∈ ms, ∃ n, m.Says n ∧ n ≠ actual := by
  obtain ⟨ms', found, hms', hfirst, rfl⟩ := h
  obtain rfl := hms.unique hw hms'
  have hnone : found.toList.map (mismatch what actual file) = [] ↔ found = none := by
    cases found <;> simp
  rw [Ne, hnone, hfirst.none_iff]
  simp only [not_forall, exists_prop]

/-! ## A file -/

theorem compares_fileIssues (counts : TreeCounts) (file : Path) (text : String) :
    Compares counts file text
      (patternIssues file text "Skill" specializedSkillsTail counts.skills)
      (patternIssues file text "Skill" skillsTail counts.skills)
      (patternIssues file text "Reference" referencesTail counts.references) := by
  have hfirst : Reports specializedSkillsWords "Skill" counts.skills file text _ :=
    reports_patternIssues tells_specializedSkillsTail definite_specializedSkillsWords
  have hsecond : Reports skillsWords "Skill" counts.skills file text _ :=
    reports_patternIssues tells_skillsTail definite_skillsWords
  have hthird : Reports referenceWords "Reference" counts.references file text _ :=
    reports_patternIssues tells_referencesTail definite_referenceWords
  have hsublist : ∀ ms ms', Finds specializedSkillsWords 0 text.toList ms →
      Finds skillsWords 0 text.toList ms' → ms'.Sublist ms := fun ms ms' h h' =>
    h.sublist definite_specializedSkillsWords (fun _ => mem_specializedSkillsWords) h'
  refine ⟨hfirst, hsecond, hthird, hsublist, fun hne => ?first_ne_nil, ?skills_le, ?length_le,
    ?severity⟩
  case first_ne_nil =>
    obtain ⟨ms, hms⟩ := exists_finds definite_specializedSkillsWords 0 text.toList
    obtain ⟨ms', hms'⟩ := exists_finds definite_skillsWords 0 text.toList
    obtain ⟨m, hm, hdiffers⟩ := (hsecond.ne_nil_iff definite_skillsWords hms').mp hne
    exact (hfirst.ne_nil_iff definite_specializedSkillsWords hms).mpr
      ⟨m, (hsublist ms ms' hms hms').subset hm, hdiffers⟩
  case skills_le => exact Nat.add_le_add hfirst.length_le_one hsecond.length_le_one
  case length_le =>
    rw [List.length_append, List.length_append]
    exact Nat.add_le_add (Nat.add_le_add hfirst.length_le_one hsecond.length_le_one)
      hthird.length_le_one
  case severity =>
    intro issue hissue
    rcases List.mem_append.mp hissue with hissue | hissue
    · exact (List.mem_append.mp hissue).elim (hfirst.severity issue) (hsecond.severity issue)
    · exact hthird.severity issue hissue

/-! ## The files -/

/-- The answer about one file. -/
def fileAnswer (counts : TreeCounts) (file : Path) : Except ReadError String → List Issue
  | .ok text => fileIssues counts file text
  | .error _ => []

theorem answers_fileAnswer (counts : TreeCounts) (file : Path) (content : Except ReadError String) :
    Answers counts file content (fileAnswer counts file content) := by
  cases content with
  | error e => exact .unreadable e
  | ok text => exact .read (compares_fileIssues counts file text)

/-- **Advertised counts are compared file by file, in the order of the files**, and pattern by
pattern in each of them. -/
theorem issues_eq_answers (tree : FileTree) (root skillsDir : Path) :
    ∃ answers : List (List Issue), issues tree root skillsDir = answers.flatten ∧
      List.Forall₂ (fun name answer =>
        Answers (TreeCounts.scan tree skillsDir) (root.join name) (tree.readText (root.join name))
          answer) Schema.countFiles answers := by
  let answerOf (name : String) : List Issue :=
    fileAnswer (TreeCounts.scan tree skillsDir) (root.join name) (tree.readText (root.join name))
  refine ⟨Schema.countFiles.map answerOf, ?_, ?_⟩
  · rw [issues, List.flatMap_def]
    refine congrArg List.flatten (List.map_congr_left fun name _ => ?_)
    dsimp only [answerOf]
    cases tree.readText (root.join name) <;> rfl
  · rw [List.forall₂_map_right_iff, List.forall₂_same]
    exact fun name _ => answers_fileAnswer _ _ _

end SkillLint.Counts
