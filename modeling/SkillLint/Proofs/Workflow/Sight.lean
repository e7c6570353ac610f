import Mathlib.Data.List.Basic
import SkillLint.Workflow.Basic

/-!
# What the checks of a workflow see of a tree

The check of a record reads its file and asks which other paths exist (`recordFileIssues_congr`).
The check of the manifest reads the manifest and the files of the listed commands
(`manifestIssues_congr`), and that of orphans reads the records (`orphanIssues_congr`).  **Which
files are visited, and what else is there, is all that can make a difference**: two trees with the
same paths, files and texts have the same issues (`issues_congr`).
-/

namespace SkillLint.Workflow

variable {w : Workflow} {tree tree' : FileTree}

/-- Everything that the checks look at is the same in both trees. -/
structure SameIn (tree tree' : FileTree) : Prop where
  paths : tree.pathExists = tree'.pathExists
  dirs : tree.isDir = tree'.isDir
  files : tree.isFile = tree'.isFile
  selection : tree.filesWithExtension = tree'.filesWithExtension
  texts : tree.readText = tree'.readText

/-! ## Records -/

theorem loadRecord_congr_text {file : Path} (htext : tree.readText file = tree'.readText file) :
    w.loadRecord tree file = w.loadRecord tree' file := by
  rw [loadRecord, loadRecord, htext]

theorem recordRemarks_congr (hpaths : tree.pathExists = tree'.pathExists) (record : Mapping) :
    recordRemarks w tree record = recordRemarks w tree' record := by
  simp only [recordRemarks, fileRemarks, hpaths]

/-- **The check of a record reads its file only**, and asks which paths exist. -/
theorem recordFileIssues_congr {file : Path} (hpaths : tree.pathExists = tree'.pathExists)
    (htext : tree.readText file = tree'.readText file) :
    w.recordFileIssues tree file = w.recordFileIssues tree' file := by
  simp only [recordFileIssues, loadRecord_congr_text htext, recordRemarks_congr hpaths]

theorem recordFiles_congr (hselection : tree.filesWithExtension = tree'.filesWithExtension) :
    w.recordFiles tree = w.recordFiles tree' := by
  rw [recordFiles, recordFiles, hselection]

theorem recordIssues_congr (h : SameIn tree tree') :
    w.recordIssues tree = w.recordIssues tree' := by
  have hfile : w.recordFileIssues tree = w.recordFileIssues tree' :=
    funext fun file => recordFileIssues_congr h.paths (congrFun h.texts file)
  rw [recordIssues, recordIssues, h.paths, recordFiles_congr h.selection, hfile]

/-! ## The manifest -/

theorem listRemarks_congr (h : SameIn tree tree') (label : String) :
    ∀ (entries : List Mapping) (registry : CommandRegistry),
      listRemarks w tree label entries registry = listRemarks w tree' label entries registry
  | [], _ => rfl
  | entry :: rest, registry => by
      simp only [listRemarks, listedRemarks, h.paths, listRemarks_congr h label rest]

theorem phasesRemarks_congr (h : SameIn tree tree') (phases : Mapping) :
    ∀ (entries : PhaseEntries) (registry : CommandRegistry),
      phasesRemarks w tree phases entries registry = phasesRemarks w tree' phases entries registry
  | [], _ => rfl
  | (name, value) :: rest, registry => by
      simp only [phasesRemarks, phaseShapeRemarks, h.paths, listRemarks_congr h,
        phasesRemarks_congr h phases rest]

theorem mismatch?_congr (h : SameIn tree tree') : mismatch? w tree = mismatch? w tree' := by
  funext entry
  simp only [mismatch?, h.files, loadRecord, h.texts]

theorem manifestRemarks_congr (h : SameIn tree tree') (manifest : Mapping) :
    manifestRemarks w tree manifest = manifestRemarks w tree' manifest := by
  simp only [manifestRemarks, phasesRemarks_congr h, listRemarks_congr h, mismatch?_congr h]

theorem manifestIssues_congr (h : SameIn tree tree') :
    w.manifestIssues tree = w.manifestIssues tree' := by
  simp only [manifestIssues, h.paths, loadRecord, h.texts, manifestRemarks_congr h]

/-! ## Orphans -/

theorem orphanIssues_congr (h : SameIn tree tree') :
    w.orphanIssues tree = w.orphanIssues tree' := by
  simp only [orphanIssues, orphans, referencedPaths, recordFiles, loadRecord, h.dirs, h.selection,
    h.texts]

/-- **Trees with the same paths, files and texts have the same issues.** -/
theorem issues_congr (h : SameIn tree tree') : w.issues tree = w.issues tree' := by
  rw [issues, issues, recordIssues_congr h, manifestIssues_congr h, orphanIssues_congr h]

end SkillLint.Workflow
