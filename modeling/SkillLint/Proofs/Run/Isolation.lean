import SkillLint.Proofs.Run.Counterparts
import SkillLint.Proofs.Run.Restriction
import SkillLint.Proofs.Workflow.Sight

/-!
# One file and the report

Checks look beyond the directory of their skill: at its siblings, and at paths that records name.
But they only ask what is there.  The text of a file is read for one skill, or for one record, so
**the content of a file makes no difference to the results of the other skills, nor to the issues
about the other records** (`report_isolated`), and never decides whether there is a report at all.
Any bytes may be written, also such as are no text.
-/

namespace SkillLint

variable {mayDiffer : List String → Prop} {tree tree' : FileTree} {names file : List String}
  {name : String}

/-- The location is that of the path, or lies below it. -/
def FileTree.Holds (tree : FileTree) (p : Path) (names : List String) : Prop :=
  ∃ base, tree.locate p = .ok base ∧ base <+: names

/-- What one directory holds, no sibling of it does. -/
theorem FileTree.Holds.ne_append {dir : Path} {base : List String} {other : String}
    (h : tree.Holds (dir.join name) file) (hname : IsName name) (hbase : tree.locate dir = .ok base)
    (hne : other ≠ name) (rest : List String) : base ++ [other] ++ rest ≠ file := by
  obtain ⟨names, hnames, hprefix⟩ := h
  rw [FileTree.locate_join_eq hname hbase hnames] at hprefix
  rintro rfl
  rw [List.append_assoc, List.prefix_append_right_inj] at hprefix
  simp [hne.symm] at hprefix

namespace Run

variable {run : Run}

/-- A run fails alike on trees that are alike. -/
theorem report_error_iff_of_alike (h : FileTree.Alike mayDiffer tree tree')
    (htree : tree.WellFormed) (htree' : tree'.WellFormed) (run : Run) (e : RunError) :
    run.report tree = .error e ↔ run.report tree' = .error e := by
  rw [report_eq_error_iff run htree, report_eq_error_iff run htree',
    ← skillDirs_eq_error_iff run htree, ← skillDirs_eq_error_iff run htree',
    skillDirs_eq_of_alike h htree htree']

/-- **The other skills have the same results.** -/
theorem results_isolated (h : FileTree.Alike (· = file) tree tree') (htree : tree.WellFormed)
    (htree' : tree'.WellFormed) {results results' : List SkillResult}
    (hresults : run.results tree = .ok results) (hresults' : run.results tree' = .ok results')
    (hname : IsName name) (hfile : tree.Holds (run.skillsDir.join name) file) :
    results.filter (·.skill ≠ name) = results'.filter (·.skill ≠ name) := by
  rcases exists_skillDirs_of_results hresults with ⟨honly, rfl⟩ | ⟨hrules, dirs, hdirs, rfl⟩
  · rcases exists_skillDirs_of_results hresults' with ⟨-, rfl⟩ | ⟨hrules, -⟩
    · rfl
    · exact absurd honly hrules
  · rcases exists_skillDirs_of_results hresults' with ⟨honly, -⟩ | ⟨-, dirs', hdirs', rfl⟩
    · exact absurd honly hrules
    · obtain rfl : dirs = dirs' :=
        Except.ok.inj (hdirs.symm.trans ((skillDirs_eq_of_alike h htree htree' run).trans hdirs'))
      rw [List.filter_map, List.filter_map]
      refine List.map_congr_left fun dir hdir => ?_
      obtain ⟨hmem, hkept⟩ := List.mem_filter.mp hdir
      obtain ⟨other, hskill, hother, rfl⟩ := exists_name_of_mem_skillDirs htree hdirs hmem
      have hne : other ≠ name := by
        simpa [skill_skillResult_join hother] using hkept
      obtain ⟨entries, children, hfind, hentry, -⟩ := hskill
      obtain ⟨base, hbase, -⟩ := FileTree.exists_locate_of_find hfind
      obtain ⟨names, hnames, -⟩ :=
        FileTree.exists_locate_of_find (FileTree.find_join htree hfind hentry)
      -- What lies below the directory of the one skill does not lie below that of the other.
      refine skillResult_eq_of_alike h htree htree' run hnames ?_
      rw [FileTree.locate_join_eq hother hbase hnames]
      exact hfile.ne_append hname hbase hne

end Run

namespace Workflow

variable {w : Workflow} {record : Path}

/-- The issues about a record carry its path. -/
theorem scope_of_mem_recordFileIssues {i : Issue} (hi : i ∈ w.recordFileIssues tree record) :
    i.scope = w.relative record := by
  simp only [recordFileIssues] at hi
  obtain ⟨remark, -, rfl⟩ := List.mem_map.mp hi
  rfl

theorem filter_recordFileIssues (w : Workflow) (tree : FileTree) (record : Path) :
    (w.recordFileIssues tree record).filter (·.scope ≠ w.relative record) = [] := by
  rw [List.filter_eq_nil_iff]
  intro i hi
  simp [scope_of_mem_recordFileIssues hi]

/-- No two records lie in one file. -/
theorem eq_of_locate_recordFiles {other : Path} (htree : tree.WellFormed)
    (hrecord : record ∈ w.recordFiles tree) (hother : other ∈ w.recordFiles tree)
    (hfile : tree.locate record = .ok file) (hotherFile : tree.locate other = .ok file) :
    other = record := by
  obtain ⟨⟨_, hwalk⟩, -⟩ := FileTree.mem_filesWithExtension_iff.mp (List.mem_filter.mp hrecord).1
  obtain ⟨⟨_, hwalk'⟩, -⟩ := FileTree.mem_filesWithExtension_iff.mp (List.mem_filter.mp hother).1
  exact FileTree.eq_of_mem_walk htree hwalk' hwalk hotherFile hfile

/-- **The other records have the same issues**, in the same order. -/
theorem recordIssues_isolated (h : FileTree.Alike (· = file) tree tree') (htree : tree.WellFormed)
    (htree' : tree'.WellFormed) (hrecord : record ∈ w.recordFiles tree)
    (hfile : tree.locate record = .ok file) :
    (w.recordIssues tree).filter (·.scope ≠ w.relative record) =
      (w.recordIssues tree').filter (·.scope ≠ w.relative record) := by
  have hfiles := recordFiles_congr (w := w) (h.filesWithExtension_eq htree htree')
  have hissues : ∀ other ∈ w.recordFiles tree,
      (w.recordFileIssues tree other).filter (·.scope ≠ w.relative record) =
        (w.recordFileIssues tree' other).filter (·.scope ≠ w.relative record) := by
    intro other hother
    by_cases hsame : other = record
    · rw [hsame, filter_recordFileIssues, filter_recordFileIssues]
    · rw [recordFileIssues_congr h.pathExists_eq (h.readText_eq fun names hnames => ?_)]
      rintro rfl
      exact hsame (eq_of_locate_recordFiles htree hrecord hother hfile hnames)
  rw [recordIssues, recordIssues, h.pathExists_eq, ← hfiles]
  split
  · rfl
  · cases hlist : w.recordFiles tree with
    | nil => rfl
    | cons first rest =>
      rw [hlist] at hissues
      simp only [List.filter_flatMap]
      exact List.flatMap_congr hissues

end Workflow

/-- **The content of one file affects its own report only.**  On two trees that differ in the
content of one file at most, a run fails with the same error or reports on both.  If the file lies
below the directory of a skill, all other skills have the same results; if it is that of a record,
the issues that do not carry its path are the same. -/
theorem Run.report_isolated (htree : tree.WellFormed) (htree' : tree'.WellFormed)
    (h : FileTree.Alike (· = file) tree tree') (run : Run) :
    (∀ e, run.report tree = .error e ↔ run.report tree' = .error e) ∧
      (∀ R R', run.report tree = .ok R → run.report tree' = .ok R' →
        ∀ name, HasSkill tree run.skillsDir name → tree.Holds (run.skillsDir.join name) file →
          R.results.filter (·.skill ≠ name) = R'.results.filter (·.skill ≠ name)) ∧
      ∀ (w : Workflow) (record : Path), record ∈ w.recordFiles tree →
        tree.locate record = .ok file →
          (w.recordIssues tree).filter (·.scope ≠ w.relative record) =
            (w.recordIssues tree').filter (·.scope ≠ w.relative record) := by
  refine ⟨Run.report_error_iff_of_alike h htree htree' run, ?skills, ?records⟩
  case skills =>
    intro R R' hR hR' name hskill hfile
    exact Run.results_isolated h htree htree' (Run.results_of_report hR)
      (Run.results_of_report hR') (hskill.isName htree) hfile
  case records =>
    intro w record hrecord hfile
    exact Workflow.recordIssues_isolated h htree htree' hrecord hfile

/-! ## A file that is both -/

namespace Run

/-- Two records, in a directory that is a skill too, next to another skill. -/
def sharedTree : FileTree :=
  (((FileTree.empty []).writeFile ⟨"commands/draft.yaml"⟩ "command: draft".toUTF8).writeFile
    ⟨"commands/edit.yaml"⟩ "[".toUTF8).makeDir ⟨"sorting"⟩

/-- The tree with bytes that are no text in one of the records. -/
def garbledTree : FileTree := sharedTree.writeFile ⟨"commands/draft.yaml"⟩ ⟨#[0xff]⟩

/-- A run that takes every directory of the project for a skill. -/
def sharedRun : Run :=
  ⟨⟨""⟩, { ProjectPaths.default with skillsDir := "." }, .default, .full, none, none⟩

/-- The workflow that the run judges. -/
def sharedWorkflow : Workflow := .ofProject sharedRun.root sharedRun.paths sharedRun.parser

theorem wellFormed_sharedTree : sharedTree.WellFormed :=
  (((FileTree.wellFormed_empty (by decide)).writeFile (by decide) _).writeFile
    (by decide) _).makeDir (by decide)

theorem wellFormed_garbledTree : garbledTree.WellFormed :=
  wellFormed_sharedTree.writeFile (by decide) _

theorem exists_at?_sharedTree : ∃ content,
    sharedTree.top.at? ["commands", "draft.yaml"] = some (.file content) := by
  have hfile : (sharedTree.top.at? ["commands", "draft.yaml"]).any FileTree.Node.isFile = true := by
    decide
  cases hnode : sharedTree.top.at? ["commands", "draft.yaml"] with
  | none => simp [hnode] at hfile
  | some node =>
    cases node with
    | dir entries => simp [hnode, FileTree.Node.isFile] at hfile
    | file content => exact ⟨content, rfl⟩

theorem alike_garbledTree :
    FileTree.Alike (· = ["commands", "draft.yaml"]) sharedTree garbledTree := by
  have hnames : sharedTree.names ⟨"commands/draft.yaml"⟩ = ["commands", "draft.yaml"] := by
    decide
  obtain ⟨content, hfile⟩ := exists_at?_sharedTree
  rw [← hnames] at hfile ⊢
  exact FileTree.alike_writeFile hfile _

theorem mem_recordFiles_sharedTree :
    ⟨"commands/draft.yaml"⟩ ∈ sharedWorkflow.recordFiles sharedTree := by
  obtain ⟨content, hfile⟩ := exists_at?_sharedTree
  have hbelow : sharedTree.top.at? (["commands"] ++ ["draft.yaml"]) = some (.file content) :=
    hfile
  have hdir : sharedTree.locate sharedWorkflow.commandsDir = .ok ["commands"] := by
    decide
  have hwalk : (⟨"commands/draft.yaml"⟩, .file content) ∈
      sharedTree.walk sharedWorkflow.commandsDir :=
    FileTree.mem_walk_of_at? wellFormed_sharedTree hdir hbelow
  exact List.mem_filter.mpr ⟨FileTree.mem_filesWithExtension_iff.mpr
    ⟨⟨content, hwalk⟩, by decide⟩, by decide⟩

theorem report_isolated_garbledTree :
    (sharedTree.WellFormed ∧ garbledTree.WellFormed ∧
      FileTree.Alike (· = ["commands", "draft.yaml"]) sharedTree garbledTree) ∧
    (∃ R R', sharedRun.report sharedTree = .ok R ∧ sharedRun.report garbledTree = .ok R' ∧
      R.results.filter (·.skill ≠ "commands") = R'.results.filter (·.skill ≠ "commands")) ∧
    (sharedWorkflow.recordIssues sharedTree).filter (·.scope ≠ "commands/draft.yaml") =
      (sharedWorkflow.recordIssues garbledTree).filter (·.scope ≠ "commands/draft.yaml") := by
  obtain ⟨R, hR⟩ := exists_report_of_isDir sharedRun wellFormed_sharedTree rfl (by decide +kernel)
  obtain ⟨R', hR'⟩ := exists_report_of_isDir sharedRun wellFormed_garbledTree rfl
    (by decide +kernel)
  have hskill : HasSkill sharedTree sharedRun.skillsDir "commands" :=
    (hasSkill_iff_isDir wellFormed_sharedTree (by decide) (by decide +kernel)).mpr
      (by decide +kernel)
  have hbelow : sharedTree.Holds (sharedRun.skillsDir.join "commands")
      ["commands", "draft.yaml"] :=
    ⟨["commands"], by decide +kernel, ["draft.yaml"], rfl⟩
  obtain ⟨-, hskills, hrecords⟩ :=
    report_isolated wellFormed_sharedTree wellFormed_garbledTree alike_garbledTree sharedRun
  have hscope : sharedWorkflow.relative ⟨"commands/draft.yaml"⟩ = "commands/draft.yaml" := by
    decide +kernel
  have hissues := hrecords sharedWorkflow _ mem_recordFiles_sharedTree (by decide +kernel)
  rw [hscope] at hissues
  exact ⟨⟨wellFormed_sharedTree, wellFormed_garbledTree, alike_garbledTree⟩,
    ⟨R, R', hR, hR', hskills R R' hR hR' "commands" hskill hbelow⟩, hissues⟩

end Run

end SkillLint
