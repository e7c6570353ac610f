import SkillLint.Proofs.Header.Keys
import SkillLint.Proofs.Report.Blocking

/-!
# When a record blocks

A record that loads is in a file, and its keys are distinct at every depth
(`isFile_of_loadRecord`, `wellKeyed_of_loadRecord`).  What it loads as depends on the file
and not on the path that leads there (`loadRecord_congr`).

**No issue about a record is an error exactly when it loads and its remarks pass**
(`noErrors_recordFileIssues_iff`).  Then the record declares all of its fields
(`passes_fieldRemarks_iff`), so it is not empty.
-/

namespace SkillLint.Workflow

variable {w : Workflow} {tree : FileTree} {file : Path} {record : Mapping}

/-! ## Loading -/

/-- A record that loads has distinct keys, at every depth. -/
theorem wellKeyed_of_loadRecord (h : w.loadRecord tree file = .ok record) :
    record.WellKeyed := by
  rw [loadRecord] at h
  split at h
  · cases h
  · split at h
    · cases h
    · split at h
      · cases h
      · rename_i hparse
        cases h
        exact HeaderParser.wellKeyed_of_parse hparse

/-- What loads is a file. -/
theorem isFile_of_loadRecord (h : w.loadRecord tree file = .ok record) :
    tree.isFile file = true := by
  rw [FileTree.isFile]
  cases hfind : tree.find file with
  | error reason =>
    rw [loadRecord, FileTree.readText, hfind] at h
    cases h
  | ok node =>
    cases node with
    | file content => rfl
    | dir entries =>
      rw [loadRecord, FileTree.readText, hfind] at h
      cases h

theorem pathExists_of_isFile (h : tree.isFile file = true) : tree.pathExists file = true := by
  rw [FileTree.isFile] at h
  rw [FileTree.pathExists]
  split at h
  · rename_i hfind
    rw [hfind]
    rfl
  · cases h

/-- Paths that lead to the same place load the same record. -/
theorem loadRecord_congr {other : Path} (h : tree.find other = tree.find file) :
    w.loadRecord tree other = w.loadRecord tree file := by
  rw [loadRecord, loadRecord, FileTree.readText, FileTree.readText, h]

/-! ## Fields -/

/-- Fields pass if all of them are declared, the phase only by commands that belong to
one. -/
theorem passes_fieldRemarks_iff : Passes (fieldRemarks record) ↔
    (∀ field ∈ Schema.recordRequiredFields, record.contains field = true) ∧
      (isPhased record = true → record.contains Schema.recordPhaseField = true) := by
  rw [fieldRemarks, passes_append, passes_map_iff fun _ => rfl, passes_ite_blocking,
    List.filter_eq_nil_iff]
  simp

theorem isEmpty_eq_false_of_contains {key : String} (h : record.contains key = true) :
    record.isEmpty = false := by
  have hkey := Mapping.contains_iff_mem_keys.mp h
  obtain ⟨entries⟩ := record
  cases entries with
  | nil => exact absurd hkey List.not_mem_nil
  | cons e rest => rfl

/-- Without keys there are no texts. -/
theorem text_eq_empty_of_isEmpty (h : record.isEmpty = true) (key : String) :
    record.text key = "" := by
  obtain ⟨entries⟩ := record
  cases entries with
  | nil => rfl
  | cons e rest => cases h

/-! ## Verdicts -/

theorem passes_recordErrorRemark (reason : RecordError) :
    ¬ Passes [recordErrorRemark reason] := by
  cases reason <;> exact not_passes_blocking

/-- **The verdict on a record**: no issue about it is an error if and only if it loads and
passes. -/
theorem noErrors_recordFileIssues_iff : NoErrors (w.recordFileIssues tree file) ↔
    ∃ record, w.loadRecord tree file = .ok record ∧ Passes (recordRemarks w tree record) := by
  cases hload : w.loadRecord tree file with
  | ok record =>
    simp only [recordFileIssues, hload, noErrors_map_remarks]
    refine ⟨fun h => ⟨record, rfl, h⟩, ?_⟩
    rintro ⟨_, hm, h⟩
    cases hm
    exact h
  | error reason =>
    simp only [recordFileIssues, hload, noErrors_map_remarks]
    refine ⟨fun h => absurd h (passes_recordErrorRemark reason), ?_⟩
    rintro ⟨_, hm, -⟩
    cases hm

/-- No issue about records is an error if and only if their directory exists and they
pass. -/
theorem noErrors_recordIssues_iff : NoErrors (w.recordIssues tree) ↔
    tree.pathExists w.commandsDir = true ∧
      ∀ file ∈ w.recordFiles tree, NoErrors (w.recordFileIssues tree file) := by
  rw [recordIssues]
  cases hdir : tree.pathExists w.commandsDir with
  | false =>
    refine ⟨fun h => absurd (h _ List.mem_cons_self) (by simp [Issue.isError]), ?_⟩
    rintro ⟨h, -⟩
    cases h
  | true =>
    cases w.recordFiles tree with
    | nil => simp [NoErrors, Issue.isError]
    | cons file files => simp only [Bool.not_true, Bool.false_eq_true, if_false,
        noErrors_flatMap, true_and]

end SkillLint.Workflow
