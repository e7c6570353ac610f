import SkillLint.Proofs.FileTree.Built
import SkillLint.Proofs.Rule.Signature
import SkillLint.Proofs.Run.Discovery

/-!
# Restricted runs

A run may be restricted to a focus and to a skill (`restrict`).  **A restriction only selects**
from what the run reports without one (`Selects`): of the issues of a skill those that a rule of
the category signed, of the results that of the skill, and of the sections that of the workflow.
Nothing is found that the unrestricted run does not find, and nothing that was asked for is lost.

That a focus selects by the names of checks rests on rules signing their issues
(`Rule.issues_registryFor`), and that a skill is selected once on directories that do not list a
name twice (`skillDirs_eq`).
-/

namespace SkillLint

/-- The result with those of its issues that are from one of the checks. -/
def SkillResult.only (checks : List String) (r : SkillResult) : SkillResult :=
  { r with issues := r.issues.filter fun i => i.check ∈ checks }

theorem Focus.ne_workflows_of_category? {focus : Focus} {category : Category}
    (hfocus : focus.category? = some category) : some focus ≠ some .workflows := by
  rintro ⟨⟩
  cases hfocus

namespace Run

variable {tree : FileTree} {run : Run} {dir : Path} {entries : List (String × FileTree.Node)}

/-- The run restricted to a focus and to a skill. -/
def restrict (run : Run) (focus : Option Focus) (skill : Option String) : Run :=
  { run with focus := focus, skill := skill }

/-- What the restrictions of a run report, if the run reports `R` without any. -/
structure Selects (tree : FileTree) (run : Run) (R : Report) : Prop where
  /-- Every issue of a skill is about it, and from a rule of the registry. -/
  signed : ∀ result ∈ R.results, ∀ i ∈ result.issues,
    i.scope = result.skill ∧ ∃ rule ∈ Rule.registry run.limits, i.check = rule.name
  /-- A focus on rules selects the issues from the rules of its category. -/
  category : ∀ focus category, Focus.category? focus = some category →
    (run.restrict (some focus) none).report tree =
      .ok ⟨R.results.map (·.only (Rule.checksOf run.limits category)), [], []⟩
  /-- The name of a skill selects its result. -/
  skill : ∀ result ∈ R.results,
    (run.restrict none (some result.skill)).report tree = .ok ⟨[result], [], []⟩
  /-- The name of a skill and a focus on rules select together. -/
  skillCategory : ∀ result ∈ R.results, ∀ focus category, Focus.category? focus = some category →
    (run.restrict (some focus) (some result.skill)).report tree =
      .ok ⟨[result.only (Rule.checksOf run.limits category)], [], []⟩
  /-- The focus on the workflow selects its issues, whatever skill is named. -/
  workflows : ∀ skill,
    (run.restrict (some .workflows) skill).report tree = .ok ⟨[], [], R.workflowIssues⟩

/-! ## Results -/

/-- A focus on rules selects issues of every skill. -/
theorem skillResult_restrict {focus : Focus} {category : Category}
    (hfocus : focus.category? = some category) (skill : Option String) (dir : Path) :
    (run.restrict (some focus) skill).skillResult tree dir =
      ((run.restrict none none).skillResult tree dir).only (Rule.checksOf run.limits category) := by
  simp only [skillResult, rules, restrict, SkillResult.only, Option.bind_some, hfocus,
    Option.bind_none, Rule.issues_registryFor]

theorem skill_skillResult_join {name : String} (hname : IsName name) (dir : Path) :
    (run.skillResult tree (dir.join name)).skill = name := by
  rw [skillResult, Path.fileName?_join hname]
  rfl

/-- Every result of a run over all skills of a directory is that of one of them. -/
theorem eq_skillResult_of_mem (tree : FileTree) (hdir : (FileTree.Node.dir entries).WellFormed)
    (run : Run) (dir : Path) (r : SkillResult)
    (hr : r ∈ (Path.sort ((skillNames entries).map dir.join)).map (run.skillResult tree)) :
    r.skill ∈ skillNames entries ∧ r = run.skillResult tree (dir.join r.skill) := by
  obtain ⟨p, hsorted, rfl⟩ := List.mem_map.mp hr
  obtain ⟨name, hname, rfl⟩ := List.mem_map.mp (List.mem_mergeSort.mp hsorted)
  rw [skill_skillResult_join (isName_of_mem_skillNames hdir hname)]
  exact ⟨hname, rfl⟩

/-! ## Reports -/

/-- The report of a run that applies rules, once its skills are found. -/
theorem report_of_skillDirs {dirs : List Path} (happlies : run.focus ≠ some .workflows)
    (hdirs : run.skillDirs tree = .ok dirs) :
    run.report tree = .ok ⟨dirs.map (run.skillResult tree),
      if run.comparesCounts then Counts.issues tree run.root run.skillsDir else [],
      if run.judgesWorkflow then (Workflow.ofProject run.root run.paths run.parser).issues tree
      else []⟩ := by
  rw [report, results_of_ne_workflows happlies, hdirs]
  rfl

/-- Without a restriction, the report has the result of every skill. -/
theorem report_restrict_none (htree : tree.WellFormed)
    (hfind : tree.find run.skillsDir = .ok (.dir entries)) :
    (run.restrict none none).report tree =
      .ok ⟨(Path.sort ((skillNames entries).map run.skillsDir.join)).map
          ((run.restrict none none).skillResult tree),
        Counts.issues tree run.root run.skillsDir,
        (Workflow.ofProject run.root run.paths run.parser).issues tree⟩ :=
  report_of_skillDirs nofun (skillDirs_eq _ htree hfind)

/-- A run that is restricted to rules or to a skill reports results only. -/
theorem report_of_restricted {dirs : List Path} (happlies : run.focus ≠ some .workflows)
    (hrestricted : run.focus.isSome ∨ run.skill.isSome) (hdirs : run.skillDirs tree = .ok dirs) :
    run.report tree = .ok ⟨dirs.map (run.skillResult tree), [], []⟩ := by
  rw [report_of_skillDirs happlies hdirs, comparesCounts, judgesWorkflow]
  cases hfocus : run.focus with
  | none =>
    have hskill : run.skill.isSome := by simpa [hfocus] using hrestricted
    simp [Option.isSome_iff_ne_none.mp hskill]
  | some focus =>
    have hrules : focus ≠ .workflows := fun h => happlies (hfocus.trans (congrArg some h))
    simp [hrules]

/-- Restricted to a category, the report has what the rules of the category say about every
skill. -/
theorem report_restrict_category (htree : tree.WellFormed)
    (hfind : tree.find run.skillsDir = .ok (.dir entries)) {focus : Focus} {category : Category}
    (hfocus : focus.category? = some category) :
    (run.restrict (some focus) none).report tree =
      .ok ⟨((Path.sort ((skillNames entries).map run.skillsDir.join)).map
        ((run.restrict none none).skillResult tree)).map
          (·.only (Rule.checksOf run.limits category)), [], []⟩ := by
  have hdirs := skillDirs_eq (run.restrict (some focus) none) htree hfind
  rw [report_of_restricted (Focus.ne_workflows_of_category? hfocus) (.inl rfl) hdirs,
    List.map_map]
  exact congrArg (fun results => Except.ok (Report.mk results [] []))
    (List.map_congr_left fun dir _ => skillResult_restrict hfocus none dir)

/-- Restricted to a skill, the report has the result of the skill. -/
theorem report_restrict_skill (htree : tree.WellFormed)
    (hfind : tree.find run.skillsDir = .ok (.dir entries)) (focus : Option Focus) {name : String}
    (happlies : focus ≠ some .workflows) (hname : name ∈ skillNames entries) :
    (run.restrict focus (some name)).report tree =
      .ok ⟨[(run.restrict focus (some name)).skillResult tree (run.skillsDir.join name)],
        [], []⟩ :=
  report_of_restricted happlies (.inr rfl)
    ((skillDirs_eq (run.restrict focus (some name)) htree hfind).trans (if_pos hname))

/-- **What an unrestricted run reports, every restriction selects from.** -/
theorem selects_of_report (htree : tree.WellFormed) {R : Report}
    (hR : (run.restrict none none).report tree = .ok R) : Selects tree run R := by
  cases hdir : tree.isDir run.skillsDir with
  | false =>
    have herror := (report_eq_error_iff (run.restrict none none) htree).mpr
      ⟨nofun, FailsWith.noDirectory hdir⟩
    rw [hR] at herror
    cases herror
  | true =>
    obtain ⟨entries, hfind⟩ := FileTree.isDir_eq_true_iff.mp hdir
    rw [report_restrict_none htree hfind] at hR
    cases hR
    have hresults := eq_skillResult_of_mem tree (htree.find hfind)
      (run.restrict none none) run.skillsDir
    refine ⟨?signed, ?category, ?skill, ?skillCategory, ?workflows⟩
    case signed =>
      intro result hresult i hi
      obtain ⟨-, hresult⟩ := hresults result hresult
      rw [hresult] at hi
      rw [skillResult, rules, restrict, Option.bind_none, Rule.registryFor_none] at hi
      obtain ⟨hscope, hrule⟩ := Rule.signed_of_mem_issues hi
      exact ⟨hscope.trans (congrArg SkillResult.skill hresult).symm, hrule⟩
    case category =>
      intro focus category hfocus
      exact report_restrict_category htree hfind hfocus
    case skill =>
      intro result hresult
      obtain ⟨hname, hresult⟩ := hresults result hresult
      rw [report_restrict_skill htree hfind none nofun hname]
      exact congrArg (fun r => Except.ok (Report.mk [r] [] [])) hresult.symm
    case skillCategory =>
      intro result hresult focus category hfocus
      obtain ⟨hname, hresult⟩ := hresults result hresult
      rw [report_restrict_skill htree hfind _ (Focus.ne_workflows_of_category? hfocus) hname,
        skillResult_restrict hfocus, ← hresult]
    case workflows =>
      intro skill
      rw [report, results_of_eq_workflows rfl]
      rfl

/-- **Restrictions only select, and runs fail for want of skills only.**  Every restriction of a
run selects from its unrestricted report, if it has one; and a run has no report exactly if it
applies rules and does not find its skills. -/
theorem restrictions_select (htree : tree.WellFormed) (run : Run) :
    (∀ R, (run.restrict none none).report tree = .ok R → Selects tree run R) ∧
      ∀ e, run.report tree = .error e ↔ run.focus ≠ some .workflows ∧ FailsWith tree run e :=
  ⟨fun _ hR => selects_of_report htree hR, fun _ => report_eq_error_iff run htree⟩

/-- A skill next to a hidden directory and a file. -/
def sampleTree : FileTree :=
  (((FileTree.empty []).writeFile ⟨"skills/sorting/SKILL.md"⟩ "A text.".toUTF8).makeDir
    ⟨"skills/.drafts"⟩).writeFile ⟨"skills/notes"⟩ "".toUTF8

/-- A run that asks for the hidden directory. -/
def sampleRun : Run := ⟨⟨"."⟩, .default, .default, .full, none, some ".drafts"⟩

theorem wellFormed_sampleTree : sampleTree.WellFormed :=
  (((FileTree.wellFormed_empty (by decide)).writeFile (by decide) _).makeDir
    (by decide)).writeFile (by decide) _

theorem restrictions_select_sample : sampleTree.WellFormed ∧
    (∃ R, (sampleRun.restrict none none).report sampleTree = .ok R ∧
      R.results.map (·.skill) = ["sorting"] ∧ Selects sampleTree sampleRun R) ∧
    sampleRun.report sampleTree = .error (.skillNotFound ".drafts") := by
  have hreport : ((sampleRun.restrict none none).report sampleTree).map
      (fun R => R.results.map (·.skill)) = .ok ["sorting"] := by
    decide +kernel
  obtain ⟨R, hR, hskills⟩ := map_eq_ok_iff.mp hreport
  obtain ⟨hselects, hfails⟩ := restrictions_select wellFormed_sampleTree sampleRun
  refine ⟨wellFormed_sampleTree, ⟨R, hR, hskills, hselects R hR⟩, (hfails _).mpr ⟨nofun, ?_⟩⟩
  refine .noSkill (by decide +kernel) rfl ?_
  rintro ⟨-, -, -, -, hhidden⟩
  revert hhidden
  decide

end Run

end SkillLint
