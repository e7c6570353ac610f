import SkillLint.Markdown.Scan
import SkillLint.Proofs.FileTree.Relisted
import SkillLint.Proofs.Run.Counterparts
import SkillLint.Proofs.Run.Restriction
import SkillLint.Proofs.Text.ByteOrder
import SkillLint.Proofs.Workflow.Sight

/-!
# Runs over relisted trees

Whatever a program lists, it sorts or only counts.  So runs, scans of documents and counts are the
same in trees that are alike and whose files have the same contents (`report_eq_of_alike`,
`scanPath_eq_of_alike`, `scan_eq_of_alike`), and **no answer depends on the order in which
directories list their entries** (`report_relisted`).  The results of a report are in the order of
their skills, by the bytes of the names.
-/

namespace SkillLint

variable {mayDiffer : List String → Prop} {tree tree' : FileTree}

/-! ## Documents and counts -/

theorem Markdown.scanPath_eq_of_alike (h : FileTree.Alike (fun _ => False) tree tree')
    (htree : tree.WellFormed) (htree' : tree'.WellFormed) : scanPath tree = scanPath tree' := by
  funext p
  rw [scanPath, scanPath, h.pathExists_eq, h.isFile_eq, h.readText_eq_of_false,
    h.filesWithExtension_eq htree htree']

namespace TreeCounts

theorem length_skillDirs_eq_of_alike (h : FileTree.Alike mayDiffer tree tree')
    (htree : tree.WellFormed) (htree' : tree'.WellFormed) (dir : Path) :
    (skillDirs tree dir).length = (skillDirs tree' dir).length := by
  rw [skillDirs, skillDirs, h.isDir_eq, h.pathExists_eq]
  rcases h.list_cases htree htree' dir with ⟨e, hlist, hlist'⟩ | ⟨_, _, hlist, hlist', hperm, -⟩
  · rw [hlist, hlist']
  · rw [hlist, hlist']
    exact (hperm.filter _).length_eq

/-- **Counts are the same in trees that are alike**, whatever the files hold. -/
theorem scan_eq_of_alike (h : FileTree.Alike mayDiffer tree tree') (htree : tree.WellFormed)
    (htree' : tree'.WellFormed) : scan tree = scan tree' := by
  funext dir
  have hscan : ∀ tree : FileTree, scan tree dir =
      ⟨(skillDirs tree dir).length,
        ((tree.walk dir).map FileTree.Alike.shape).countP fun e => isReference e.1⟩ := by
    intro tree
    rw [List.countP_map]
    rfl
  rw [hscan tree, hscan tree', length_skillDirs_eq_of_alike h htree htree',
    (h.walk_perm htree htree' dir).countP_eq]

end TreeCounts

/-! ## Reports -/

namespace Run

theorem results_eq_of_alike (h : FileTree.Alike (fun _ => False) tree tree')
    (htree : tree.WellFormed) (htree' : tree'.WellFormed) (run : Run) :
    run.results tree = run.results tree' := by
  have hresult : run.skillResult tree = run.skillResult tree' := by
    funext dir
    exact skillResult_congr ⟨h.pathExists_eq, h.isDir_eq, congrFun h.readText_eq_of_false _,
      congrFun (h.markdownEntries_eq htree htree') _,
      fun file _ => congrFun h.readText_eq_of_false file⟩
  rw [results, results, skillDirs_eq_of_alike h htree htree', hresult]

theorem countIssues_eq_of_alike (h : FileTree.Alike (fun _ => False) tree tree')
    (htree : tree.WellFormed) (htree' : tree'.WellFormed) (root skillsDir : Path) :
    Counts.issues tree root skillsDir = Counts.issues tree' root skillsDir := by
  rw [Counts.issues, Counts.issues, TreeCounts.scan_eq_of_alike h htree htree',
    h.readText_eq_of_false]

/-- **A run has the same report or the same error** in trees that are alike without exception. -/
theorem report_eq_of_alike (h : FileTree.Alike (fun _ => False) tree tree')
    (htree : tree.WellFormed) (htree' : tree'.WellFormed) (run : Run) :
    run.report tree = run.report tree' := by
  have hseen : Workflow.SameIn tree tree' :=
    ⟨h.pathExists_eq, h.isDir_eq, h.isFile_eq, h.filesWithExtension_eq htree htree',
      h.readText_eq_of_false⟩
  simp only [report, results_eq_of_alike h htree htree', countIssues_eq_of_alike h htree htree',
    Workflow.issues_congr hseen]

/-! ## The order of results -/

/-- The directories of skills are in strictly increasing order. -/
theorem pairwise_lt_skillDirs (htree : tree.WellFormed) {run : Run} {dirs : List Path}
    (hdirs : run.skillDirs tree = .ok dirs) : dirs.Pairwise Path.Lt := by
  obtain ⟨entries, hfind, rfl | ⟨name, -, rfl⟩⟩ := run.exists_of_skillDirs htree hdirs
  · exact Path.pairwise_lt_sort (distinctSteps_skillNames (htree.find hfind) _)
  · exact List.pairwise_singleton _ _

/-- **The results of a report are in the order of their skills**, each skill with one result. -/
theorem pairwise_bytes_lt_of_report (htree : tree.WellFormed) {run : Run} {R : Report}
    (hR : run.report tree = .ok R) :
    (R.results.map (·.skill)).Pairwise fun a b => Text.bytes a < Text.bytes b := by
  rcases exists_skillDirs_of_results (results_of_report hR) with
    ⟨-, hresults⟩ | ⟨-, dirs, hdirs, hresults⟩
  · rw [hresults]
    exact .nil
  · rw [hresults, List.map_map, List.pairwise_map]
    refine (pairwise_lt_skillDirs htree hdirs).imp_of_mem fun {dir dir'} hdir hdir' hlt => ?_
    obtain ⟨name, -, hname, rfl⟩ := exists_name_of_mem_skillDirs htree hdirs hdir
    obtain ⟨name', -, hname', rfl⟩ := exists_name_of_mem_skillDirs htree hdirs hdir'
    rw [Function.comp_apply, Function.comp_apply, skill_skillResult_join hname,
      skill_skillResult_join hname']
    exact Path.bytes_lt_of_lt_join hname hname' hlt

/-- **No answer depends on the order in which directories list their entries.**  Trees that are
the same except for these orders have the same reports and errors, the same issues in documents and
the same counts; and the results of a report are strictly increasing by the bytes of their
skills. -/
theorem report_relisted (htree : tree.WellFormed) (h : tree.Relisted tree') :
    (∀ run : Run, run.report tree = run.report tree') ∧
      (∀ p, Markdown.scanPath tree p = Markdown.scanPath tree' p) ∧
      (∀ dir, TreeCounts.scan tree dir = TreeCounts.scan tree' dir) ∧
      ∀ (run : Run) (R : Report), run.report tree = .ok R →
        (R.results.map (·.skill)).Pairwise fun a b => Text.bytes a < Text.bytes b := by
  have halike := h.alike
  have htree' := h.wellFormed htree
  exact ⟨report_eq_of_alike halike htree htree',
    congrFun (Markdown.scanPath_eq_of_alike halike htree htree'),
    congrFun (TreeCounts.scan_eq_of_alike halike htree htree'),
    fun _ _ => pairwise_bytes_lt_of_report htree⟩

/-- Two skills, in one order and in the other. -/
def sortingFirst : FileTree :=
  ⟨.dir [("skills", .dir [("sorting", .dir []), ("editing", .dir [])])], []⟩

@[inherit_doc sortingFirst]
def editingFirst : FileTree :=
  ⟨.dir [("skills", .dir [("editing", .dir []), ("sorting", .dir [])])], []⟩

/-- A run in the usual places, without a restriction. -/
def usualRun : Run := ⟨⟨"."⟩, .default, .default, .full, none, none⟩

theorem wellFormed_sortingFirst : sortingFirst.WellFormed := by
  have hempty : (FileTree.Node.dir []).WellFormed := FileTree.Node.wellFormed_emptyDir
  have hskills : (FileTree.Node.dir [("sorting", .dir []), ("editing", .dir [])]).WellFormed :=
    .dir (by decide) (by decide) (by simp [hempty])
  exact FileTree.Node.wellFormed_singleton (by decide) hskills

theorem relisted_sortingFirst : sortingFirst.Relisted editingFirst := by
  have hempty : (FileTree.Node.dir []).Relisted (.dir []) := .dir .nil (by simp)
  have hskills : (FileTree.Node.dir [("sorting", .dir []), ("editing", .dir [])]).Relisted
      (.dir [("editing", .dir []), ("sorting", .dir [])]) :=
    .dir (.swap _ _ _) (by simp [hempty])
  exact ⟨.dir (.refl _) (by simp [hskills]), rfl⟩

theorem report_relisted_sortingFirst : sortingFirst.WellFormed ∧
    sortingFirst.Relisted editingFirst ∧
    ∃ R, usualRun.report sortingFirst = .ok R ∧ usualRun.report editingFirst = .ok R ∧
      (R.results.map (·.skill)).Pairwise fun a b => Text.bytes a < Text.bytes b := by
  obtain ⟨hreport, -, -, horder⟩ := report_relisted wellFormed_sortingFirst relisted_sortingFirst
  obtain ⟨R, hR⟩ := exists_report_of_isDir usualRun wellFormed_sortingFirst rfl (by decide +kernel)
  exact ⟨wellFormed_sortingFirst, relisted_sortingFirst, R, hR, (hreport usualRun).symm.trans hR,
    horder usualRun R hR⟩

end Run

end SkillLint
