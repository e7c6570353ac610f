import Mathlib.Data.List.Nodup
import SkillLint.Proofs.FileTree.Walks
import SkillLint.Run

/-!
# Skills that a run finds

In a well-formed tree the skills of a directory are its entries that are directories and not
hidden, under their names (`HasSkill`), and the run finds each of them once
(`discoverSkills_eq`, `skillDirs_eq`).

**A run fails for two reasons only** (`FailsWith`): the directory of skills is none, or the
skill that the run names is not there.  What the files hold plays no part in this.
-/

namespace SkillLint

variable {tree : FileTree} {dir : Path} {entries : List (String × FileTree.Node)} {name : String}

/-- The directory has a skill of the name: an entry that is a directory and not hidden. -/
def HasSkill (tree : FileTree) (dir : Path) (name : String) : Prop :=
  ∃ entries children, tree.find dir = .ok (.dir entries) ∧ (name, .dir children) ∈ entries ∧
    isHiddenName name = false

/-- The names of the entries that are skills, in the order of the listing. -/
def skillNames (entries : List (String × FileTree.Node)) : List String :=
  (entries.filter fun e => e.2.isDir && !isHiddenName e.1).map Prod.fst

theorem mem_skillNames : name ∈ skillNames entries ↔
    ∃ children, (name, .dir children) ∈ entries ∧ isHiddenName name = false := by
  simp only [skillNames, List.mem_map, List.mem_filter, Bool.and_eq_true, Bool.not_eq_true']
  constructor
  · rintro ⟨⟨_, node⟩, ⟨hmem, hdir, hshown⟩, rfl⟩
    cases node with
    | file content => cases hdir
    | dir children => exact ⟨children, hmem, hshown⟩
  · rintro ⟨children, hmem, hshown⟩
    exact ⟨(name, .dir children), ⟨hmem, rfl, hshown⟩, rfl⟩

theorem hasSkill_iff (hfind : tree.find dir = .ok (.dir entries)) :
    HasSkill tree dir name ↔ name ∈ skillNames entries := by
  rw [mem_skillNames]
  constructor
  · rintro ⟨entries', children, hfind', hmem, hshown⟩
    obtain rfl : entries = entries' := by simpa [hfind] using hfind'
    exact ⟨children, hmem, hshown⟩
  · rintro ⟨children, hmem, hshown⟩
    exact ⟨entries, children, hfind, hmem, hshown⟩

theorem isName_of_mem_skillNames (hdir : (FileTree.Node.dir entries).WellFormed)
    (hname : name ∈ skillNames entries) : IsName name := by
  obtain ⟨children, hmem, -⟩ := mem_skillNames.mp hname
  exact hdir.isName hmem

theorem HasSkill.isName (h : HasSkill tree dir name) (htree : tree.WellFormed) : IsName name := by
  obtain ⟨entries, children, hfind, hmem, -⟩ := h
  exact (htree.find hfind).isName hmem

/-- A name that leads to a directory in the directory is that of a skill, unless hidden. -/
theorem hasSkill_iff_isDir (htree : tree.WellFormed) (hname : IsName name)
    (hdir : tree.isDir dir = true) : HasSkill tree dir name ↔
      tree.isDir (dir.join name) = true ∧ isHiddenName name = false := by
  obtain ⟨entries, hfind⟩ := FileTree.isDir_eq_true_iff.mp hdir
  rw [hasSkill_iff hfind, mem_skillNames, FileTree.isDir_join_iff htree hname hfind,
    exists_and_right]

theorem nodup_skillNames (hdir : (FileTree.Node.dir entries).WellFormed) :
    (skillNames entries).Nodup :=
  hdir.nodup.sublist (List.filter_sublist.map Prod.fst)

/-- The directories of skills are distinct. -/
theorem distinctSteps_skillNames (hdir : (FileTree.Node.dir entries).WellFormed) (p : Path) :
    Path.DistinctSteps ((skillNames entries).map p.join) :=
  Path.distinctSteps_map_join (fun _ => isName_of_mem_skillNames hdir) (nodup_skillNames hdir) p

/-! ## Discovery -/

theorem discoverSkills_of_not_isDir (hdir : tree.isDir dir = false) :
    discoverSkills tree dir = .error (.skillsDirNotFound dir) := by
  rw [discoverSkills, hdir]
  rfl

/-- **Discovery finds the skills of a directory**, in the order of their paths. -/
theorem discoverSkills_eq (htree : tree.WellFormed) (hfind : tree.find dir = .ok (.dir entries)) :
    discoverSkills tree dir = .ok (Path.sort ((skillNames entries).map dir.join)) := by
  have hskills : ((entries.map Prod.fst).map dir.join).filter
      (fun p => tree.isDir p && !p.fileName?.any isHiddenName) =
        (skillNames entries).map dir.join := by
    rw [skillNames, List.map_map, List.filter_map, List.map_map]
    refine congrArg (List.map _) (List.filter_congr fun e he => ?_)
    have hname := (htree.find hfind).isName he
    simp [FileTree.isDir_join htree hfind he, Path.fileName?_join hname]
  rw [discoverSkills, FileTree.isDir_eq_true_iff.mpr ⟨entries, hfind⟩, FileTree.list_of_find hfind]
  exact congrArg (fun dirs => Except.ok (Path.sort dirs)) hskills

/-- What was discovered are the skills of a directory. -/
theorem exists_of_discoverSkills (htree : tree.WellFormed) {skills : List Path}
    (hskills : discoverSkills tree dir = .ok skills) :
    ∃ entries, tree.find dir = .ok (.dir entries) ∧
      skills = Path.sort ((skillNames entries).map dir.join) := by
  cases hdir : tree.isDir dir with
  | false =>
    rw [discoverSkills_of_not_isDir hdir] at hskills
    cases hskills
  | true =>
    obtain ⟨entries, hfind⟩ := FileTree.isDir_eq_true_iff.mp hdir
    rw [discoverSkills_eq htree hfind] at hskills
    exact ⟨entries, hfind, (Except.ok.inj hskills).symm⟩

/-- A skill stands among the paths of all skills once. -/
theorem filter_sort_skillNames (hdir : (FileTree.Node.dir entries).WellFormed) (dir : Path)
    (wanted : String) :
    (Path.sort ((skillNames entries).map dir.join)).filter (·.fileName? = some wanted) =
      if wanted ∈ skillNames entries then [dir.join wanted] else [] := by
  have hnames : ((skillNames entries).map dir.join).filter (·.fileName? = some wanted) =
      ((skillNames entries).filter (· == wanted)).map dir.join := by
    rw [List.filter_map]
    refine congrArg (List.map _) (List.filter_congr fun name hname => ?_)
    simp [Path.fileName?_join (isName_of_mem_skillNames hdir hname), Bool.beq_eq_decide_eq]
  have hperm := (List.mergeSort_perm ((skillNames entries).map dir.join) Path.le).filter
    (·.fileName? = some wanted)
  rw [hnames, List.filter_beq] at hperm
  split
  · rename_i hwanted
    rw [List.count_eq_one_of_mem (nodup_skillNames hdir) hwanted] at hperm
    exact hperm.eq_singleton
  · rename_i hwanted
    rw [List.count_eq_zero_of_not_mem hwanted] at hperm
    exact hperm.eq_nil

namespace Run

variable (run : Run)

/-- **The skills that a run applies rules to** are all of the directory, or the one that it
names. -/
theorem skillDirs_eq (htree : tree.WellFormed)
    (hfind : tree.find run.skillsDir = .ok (.dir entries)) :
    run.skillDirs tree =
      match run.skill with
      | none => .ok (Path.sort ((skillNames entries).map run.skillsDir.join))
      | some wanted =>
        if wanted ∈ skillNames entries then .ok [run.skillsDir.join wanted]
        else .error (.skillNotFound wanted) := by
  rw [skillDirs, discoverSkills_eq htree hfind]
  cases run.skill with
  | none => rfl
  | some wanted =>
    have hfilter := filter_sort_skillNames (htree.find hfind) run.skillsDir wanted
    by_cases hwanted : wanted ∈ skillNames entries
    · rw [if_pos hwanted] at hfilter
      simp only [bind, Except.bind, hfilter, if_pos hwanted]
      rfl
    · rw [if_neg hwanted] at hfilter
      simp only [bind, Except.bind, hfilter, if_neg hwanted]
      rfl

/-- The skills that a run finds are all of the directory, or one. -/
theorem exists_of_skillDirs (htree : tree.WellFormed) {dirs : List Path}
    (hdirs : run.skillDirs tree = .ok dirs) :
    ∃ entries, tree.find run.skillsDir = .ok (.dir entries) ∧
      (dirs = Path.sort ((skillNames entries).map run.skillsDir.join) ∨
        ∃ name ∈ skillNames entries, dirs = [run.skillsDir.join name]) := by
  cases hdir : tree.isDir run.skillsDir with
  | false =>
    rw [skillDirs, discoverSkills_of_not_isDir hdir] at hdirs
    cases hdirs
  | true =>
    obtain ⟨entries, hfind⟩ := FileTree.isDir_eq_true_iff.mp hdir
    refine ⟨entries, hfind, ?_⟩
    rw [skillDirs_eq run htree hfind] at hdirs
    split at hdirs
    · exact .inl (Except.ok.inj hdirs).symm
    · split at hdirs
      · rename_i wanted _ hwanted
        exact .inr ⟨wanted, hwanted, (Except.ok.inj hdirs).symm⟩
      · cases hdirs

/-! ## Failure -/

/-- The reasons for which a run that applies rules fails. -/
inductive FailsWith (tree : FileTree) (run : Run) : RunError → Prop where
  | noDirectory (hdir : tree.isDir run.skillsDir = false) :
      FailsWith tree run (.skillsDirNotFound run.skillsDir)
  | noSkill {wanted : String} (hdir : tree.isDir run.skillsDir = true)
      (hskill : run.skill = some wanted) (hmissing : ¬ HasSkill tree run.skillsDir wanted) :
      FailsWith tree run (.skillNotFound wanted)

theorem skillDirs_eq_error_iff (htree : tree.WellFormed) {e : RunError} :
    run.skillDirs tree = .error e ↔ run.FailsWith tree e := by
  cases hdir : tree.isDir run.skillsDir with
  | false =>
    have hdirs : run.skillDirs tree = .error (.skillsDirNotFound run.skillsDir) := by
      rw [skillDirs, discoverSkills_of_not_isDir hdir]
      rfl
    rw [hdirs]
    constructor
    · rintro ⟨⟩
      exact .noDirectory hdir
    · rintro (_ | ⟨hdir', -, -⟩)
      · rfl
      · simp [hdir] at hdir'
  | true =>
    obtain ⟨entries, hfind⟩ := FileTree.isDir_eq_true_iff.mp hdir
    rw [skillDirs_eq run htree hfind]
    constructor
    · intro herror
      cases hskill : run.skill with
      | none => simp [hskill] at herror
      | some wanted =>
        simp only [hskill] at herror
        split at herror
        · cases herror
        · rename_i hmissing
          cases herror
          exact .noSkill hdir hskill (mt (hasSkill_iff hfind).mp hmissing)
    · rintro (hdir' | ⟨-, hskill, hmissing⟩)
      · simp [hdir] at hdir'
      · simp only [hskill]
        rw [if_neg (mt (hasSkill_iff hfind).mpr hmissing)]

variable {run}

theorem results_of_ne_workflows (happlies : run.focus ≠ some .workflows) :
    run.results tree = (run.skillDirs tree).map (·.map (run.skillResult tree)) :=
  if_pos (decide_eq_true happlies)

theorem results_of_eq_workflows (honly : run.focus = some .workflows) :
    run.results tree = .ok [] :=
  if_neg (by simp [appliesRules, honly])

theorem results_of_report {R : Report} (h : run.report tree = .ok R) :
    run.results tree = .ok R.results := by
  obtain ⟨results, hresults, rfl⟩ := map_eq_ok_iff.mp h
  exact hresults

/-- The results of a run are those of the directories that it finds, or none. -/
theorem exists_skillDirs_of_results {results : List SkillResult}
    (h : run.results tree = .ok results) :
    (run.focus = some .workflows ∧ results = []) ∨
      run.focus ≠ some .workflows ∧ ∃ dirs, run.skillDirs tree = .ok dirs ∧
        results = dirs.map (run.skillResult tree) := by
  by_cases honly : run.focus = some .workflows
  · rw [results_of_eq_workflows honly] at h
    exact .inl ⟨honly, (Except.ok.inj h).symm⟩
  · rw [results_of_ne_workflows honly] at h
    obtain ⟨dirs, hdirs, rfl⟩ := map_eq_ok_iff.mp h
    exact .inr ⟨honly, dirs, hdirs, rfl⟩

/-- **A run fails only if it applies rules and does not find its skills.** -/
theorem report_eq_error_iff (run : Run) (htree : tree.WellFormed) {e : RunError} :
    run.report tree = .error e ↔ run.focus ≠ some .workflows ∧ run.FailsWith tree e := by
  rw [report]
  by_cases happlies : run.focus = some .workflows
  · rw [results_of_eq_workflows happlies]
    simp [Except.map, happlies]
  · rw [results_of_ne_workflows happlies, ← skillDirs_eq_error_iff run htree]
    cases run.skillDirs tree <;> simp [Except.map, happlies]

/-- A run that names no skill has a report if there is a directory of skills. -/
theorem exists_report_of_isDir (run : Run) (htree : tree.WellFormed) (hskill : run.skill = none)
    (hdir : tree.isDir run.skillsDir = true) : ∃ R, run.report tree = .ok R := by
  cases hreport : run.report tree with
  | ok R => exact ⟨R, rfl⟩
  | error e =>
    obtain ⟨-, hfails⟩ := (report_eq_error_iff run htree).mp hreport
    cases hfails with
    | noDirectory hnone => simp [hdir] at hnone
    | noSkill _ hwanted _ => simp [hskill] at hwanted

end Run

end SkillLint
