import SkillLint.Proofs.FileTree.Built
import SkillLint.Proofs.FileTree.Walks
import SkillLint.Workflow.Context

/-!
# The files of records

The records of commands are the `yaml` files at and below the directory of commands, other than the
manifest (`IsRecordFile`).  Which file is the manifest is a matter of its path, but `recordFiles`
looks at the name alone, and directories have names of their own.

So the listed files are in order and all of them are files of records, yet a file of a record is
listed only if it has another name than the manifest (`mem_recordFiles_iff`).  **The files of
records are listed exactly if none of them has the name of the manifest** (`listsRecords_iff`); one
in another directory goes unnoticed (`not_listsRecords`).
-/

namespace SkillLint.Workflow

variable {w : Workflow} {tree : FileTree} {p : Path} {files : List Path}

/-- The path is that of a record: names lead there from the directory of commands, to a file with
the extension of records, and its steps are not those of the manifest. -/
structure IsRecordFile (w : Workflow) (tree : FileTree) (p : Path) : Prop where
  below : ∃ start names content, tree.find w.commandsDir = .ok start ∧
    start.at? names = some (.file content) ∧ p = w.commandsDir.joinAll names
  yaml : p.extension? = some "yaml"
  notManifest : p.components ≠ w.manifest.components

/-- **The files of records are listed**, each once, in the order of their steps, and nothing
else. -/
def ListsRecords (w : Workflow) (tree : FileTree) (files : List Path) : Prop :=
  files.Pairwise Path.Lt ∧ ∀ p, p ∈ files ↔ w.IsRecordFile tree p

/-! ## Names and paths -/

/-- A path with an extension has a name. -/
theorem exists_fileName? {extension : String} (h : p.extension? = some extension) :
    ∃ name, p.fileName? = some name := by
  rw [Path.extension?, Option.bind_eq_some_iff] at h
  obtain ⟨name, hname, -⟩ := h
  exact ⟨name, hname⟩

theorem fileName?_eq_of_components {q : Path} (h : p.components = q.components) :
    p.fileName? = q.fileName? := by
  rw [Path.fileName?, h, Path.fileName?]

theorem isManifest_iff {name : String} (h : p.fileName? = some name) :
    w.isManifest p = true ↔ p.fileName? = w.manifest.fileName? := by
  rw [isManifest, h]
  cases w.manifest.fileName? with
  | none => simp
  | some manifest => simp

/-! ## The listed files -/

/-- The files of records are those that a walk selects, apart from the manifest. -/
theorem isRecordFile_iff (htree : tree.WellFormed) : w.IsRecordFile tree p ↔
    p ∈ tree.filesWithExtension w.commandsDir "yaml" ∧
      p.components ≠ w.manifest.components := by
  rw [FileTree.mem_filesWithExtension_iff]
  constructor
  · rintro ⟨⟨start, names, content, hbelow⟩, hyaml, hmanifest⟩
    exact ⟨⟨⟨content, (FileTree.mem_walk_iff htree).mpr ⟨start, names, hbelow⟩⟩, hyaml⟩, hmanifest⟩
  · rintro ⟨⟨⟨content, hwalk⟩, hyaml⟩, hmanifest⟩
    obtain ⟨start, names, hbelow⟩ := (FileTree.mem_walk_iff htree).mp hwalk
    exact ⟨⟨start, names, content, hbelow⟩, hyaml, hmanifest⟩

/-- **A listed file is one of a record, and has another name than the manifest.** -/
theorem mem_recordFiles_iff (htree : tree.WellFormed) : p ∈ w.recordFiles tree ↔
    w.IsRecordFile tree p ∧ p.fileName? ≠ w.manifest.fileName? := by
  rw [recordFiles, List.mem_filter, isRecordFile_iff htree, Bool.not_eq_true', ← Bool.not_eq_true]
  constructor
  · rintro ⟨hfile, hother⟩
    obtain ⟨name, hname⟩ := exists_fileName? (FileTree.mem_filesWithExtension_iff.mp hfile).2
    rw [isManifest_iff hname] at hother
    exact ⟨⟨hfile, fun hsame => hother (fileName?_eq_of_components hsame)⟩, hother⟩
  · rintro ⟨⟨hfile, -⟩, hother⟩
    obtain ⟨name, hname⟩ := exists_fileName? (FileTree.mem_filesWithExtension_iff.mp hfile).2
    exact ⟨hfile, by rwa [isManifest_iff hname]⟩

theorem pairwise_lt_recordFiles (htree : tree.WellFormed) (w : Workflow) :
    (w.recordFiles tree).Pairwise Path.Lt :=
  (FileTree.pairwise_lt_filesWithExtension htree _ _).filter _

/-- **What is listed, and when it is all.**  The listed files are in order, each once, and they are
files of records.  They are all of them if and only if no file of a record has the name of the
manifest. -/
theorem listsRecords_iff (w : Workflow) (htree : tree.WellFormed) :
    (w.recordFiles tree).Pairwise Path.Lt ∧
      (∀ p ∈ w.recordFiles tree, w.IsRecordFile tree p) ∧
        (w.ListsRecords tree (w.recordFiles tree) ↔
          ∀ p, w.IsRecordFile tree p → p.fileName? ≠ w.manifest.fileName?) := by
  have horder := pairwise_lt_recordFiles htree w
  refine ⟨horder, fun p hp => ((mem_recordFiles_iff htree).mp hp).1, ?_, fun hnames => ?_⟩
  · rintro ⟨-, hall⟩ p hp
    exact ((mem_recordFiles_iff htree).mp ((hall p).mpr hp)).2
  · refine ⟨horder, fun p => ⟨fun hp => ((mem_recordFiles_iff htree).mp hp).1, fun hp => ?_⟩⟩
    exact (mem_recordFiles_iff htree).mpr ⟨hp, hnames p hp⟩

/-! ## A record in another directory -/

/-- The workflow of a project at the working directory, its parts in the usual places. -/
def plainWorkflow : Workflow := ofProject ⟨"."⟩ .default .full

/-- The manifest, and a record. -/
def recordTree (path : Path) : FileTree :=
  ((FileTree.empty []).writeFile plainWorkflow.manifest "phases:".toUTF8).writeFile path
    "command: draft".toUTF8

theorem wellFormed_recordTree {path : Path}
    (hpath : ∀ name ∈ ((FileTree.empty []).writeFile plainWorkflow.manifest
      "phases:".toUTF8).names path, IsName name) : (recordTree path).WellFormed :=
  ((FileTree.wellFormed_empty (by decide)).writeFile (by decide) _).writeFile hpath _

theorem listsRecords_draftRecord : (recordTree ⟨"commands/writing/draft.yaml"⟩).WellFormed ∧
    plainWorkflow.ListsRecords (recordTree ⟨"commands/writing/draft.yaml"⟩)
      (plainWorkflow.recordFiles (recordTree ⟨"commands/writing/draft.yaml"⟩)) := by
  have htree : (recordTree ⟨"commands/writing/draft.yaml"⟩).WellFormed :=
    wellFormed_recordTree (by decide)
  have hfiles : (((recordTree ⟨"commands/writing/draft.yaml"⟩).walk
      plainWorkflow.commandsDir).filter (FileTree.isFileWith "yaml")).map Prod.fst =
        [⟨"./commands/workflow-manifest.yaml"⟩, ⟨"./commands/writing/draft.yaml"⟩] := by
    decide +kernel
  refine ⟨htree, (listsRecords_iff plainWorkflow htree).2.2.mpr fun p hp => ?_⟩
  obtain ⟨hmem, hmanifest⟩ := (isRecordFile_iff htree).mp hp
  rw [FileTree.filesWithExtension_eq, Path.mem_sort, hfiles, List.mem_cons,
    List.mem_singleton] at hmem
  rcases hmem with rfl | rfl
  · exact absurd (by decide +kernel) hmanifest
  · decide +kernel

/-- Not all files of records are listed: one may have the name of the manifest, in another
directory. -/
theorem not_listsRecords : ¬ ∀ (w : Workflow) (tree : FileTree), tree.WellFormed →
    w.ListsRecords tree (w.recordFiles tree) := by
  intro h
  have htree : (recordTree ⟨"commands/writing/workflow-manifest.yaml"⟩).WellFormed :=
    wellFormed_recordTree (by decide)
  have hrecord : plainWorkflow.IsRecordFile
      (recordTree ⟨"commands/writing/workflow-manifest.yaml"⟩)
        ⟨"./commands/writing/workflow-manifest.yaml"⟩ := by
    refine (isRecordFile_iff htree).mpr ⟨?_, by decide +kernel⟩
    rw [FileTree.filesWithExtension_eq, Path.mem_sort]
    decide +kernel
  have hlisted := ((h plainWorkflow _ htree).2 _).mpr hrecord
  exact ((mem_recordFiles_iff htree).mp hlisted).2 (by decide +kernel)

end SkillLint.Workflow
