import SkillLint.Proofs.Rule.References
import SkillLint.Proofs.Rule.Sight
import SkillLint.Proofs.Run.Discovery

/-!
# Runs over trees that are alike

In trees that are alike a run finds the same skills, or fails for the same reason
(`skillDirs_eq_of_alike`), because what it goes by are the names and kinds of entries, in an order
of its own.  **The result of a skill is the same**, unless contents differ at or below its directory
(`skillResult_eq_of_alike`).
-/

namespace SkillLint

variable {mayDiffer : List String → Prop} {tree tree' : FileTree} {dir : Path} {names : List String}

namespace FileTree.Alike

/-- The markdown entries of a directory are the same. -/
theorem markdownEntries_eq (h : Alike mayDiffer tree tree') (htree : tree.WellFormed)
    (htree' : tree'.WellFormed) : Rule.markdownEntries tree = Rule.markdownEntries tree' :=
  funext fun dir => Rule.markdownEntries_eq_of_alikeBelow (h.below dir) htree htree'

/-- **The skills of a directory are the same.** -/
theorem discoverSkills_eq (h : Alike mayDiffer tree tree') (htree : tree.WellFormed)
    (htree' : tree'.WellFormed) : discoverSkills tree = discoverSkills tree' := by
  funext dir
  rw [discoverSkills, discoverSkills, h.isDir_eq]
  rcases h.list_cases htree htree' dir with
    ⟨e, hlist, hlist'⟩ | ⟨_, _, hlist, hlist', hperm, hsteps⟩
  · rw [hlist, hlist']
  · have hsorted := Path.sort_eq_of_perm (hsteps.sublist List.filter_sublist)
      (hperm.filter fun p => tree'.isDir p && !p.fileName?.any isHiddenName)
    rw [hlist, hlist']
    simp only [hsorted]

/-- A path that leads below a location without differing contents reads the same. -/
theorem readText_join_eq (h : Alike mayDiffer tree tree') {name : String} (hname : IsName name)
    (hlocate : tree.locate dir = .ok names) (hsame : ∀ rest, ¬ mayDiffer (names ++ rest)) :
    tree.readText (dir.join name) = tree'.readText (dir.join name) := by
  refine h.readText_eq fun names' hnames' => ?_
  rw [locate_join_eq hname hlocate hnames']
  exact hsame [name]

/-- **Rules see the same** of a skill below whose directory no contents differ. -/
theorem sameIn (h : Alike mayDiffer tree tree') (htree : tree.WellFormed)
    (htree' : tree'.WellFormed) {skill : Skill} (hlocate : tree.locate skill.path = .ok names)
    (hsame : ∀ rest, ¬ mayDiffer (names ++ rest)) : Skill.SameIn tree tree' skill where
  paths := h.pathExists_eq
  dirs := h.isDir_eq
  document := h.readText_join_eq (by decide) hlocate hsame
  references := by rw [h.markdownEntries_eq htree htree']
  texts := by
    intro file hfile
    obtain ⟨entries, name, hfind, hname, rfl⟩ := Rule.exists_of_mem_markdownEntries htree hfile
    obtain ⟨names', hnames', -⟩ := exists_locate_of_find hfind
    have hbelow : names' = names ++ [Schema.referencesDir] :=
      locate_join_eq (by decide) hlocate hnames'
    refine h.readText_join_eq hname hnames' fun rest => ?_
    rw [hbelow, List.append_assoc]
    exact hsame _

end FileTree.Alike

namespace Run

variable {run : Run}

theorem skillDirs_eq_of_alike (h : FileTree.Alike mayDiffer tree tree') (htree : tree.WellFormed)
    (htree' : tree'.WellFormed) (run : Run) : run.skillDirs tree = run.skillDirs tree' := by
  rw [skillDirs, skillDirs, h.discoverSkills_eq htree htree']

/-- The result of a skill depends on what rules see of it. -/
theorem skillResult_congr
    (h : Skill.SameIn tree tree' (.ofDirectory dir (dir.fileName?.getD "") run.parser)) :
    run.skillResult tree dir = run.skillResult tree' dir := by
  rw [skillResult, skillResult, rules, Rule.issues_congr h]

/-- **The result of a skill is the same**, if no contents differ below its directory. -/
theorem skillResult_eq_of_alike (h : FileTree.Alike mayDiffer tree tree') (htree : tree.WellFormed)
    (htree' : tree'.WellFormed) (run : Run) (hlocate : tree.locate dir = .ok names)
    (hsame : ∀ rest, ¬ mayDiffer (names ++ rest)) :
    run.skillResult tree dir = run.skillResult tree' dir :=
  skillResult_congr (h.sameIn htree htree' hlocate hsame)

/-- The directories of the skills that a run finds are named entries of the directory of
skills. -/
theorem exists_name_of_mem_skillDirs (htree : tree.WellFormed) {dirs : List Path}
    (hdirs : run.skillDirs tree = .ok dirs) (hdir : dir ∈ dirs) :
    ∃ name, HasSkill tree run.skillsDir name ∧ IsName name ∧ dir = run.skillsDir.join name := by
  obtain ⟨entries, hfind, hall⟩ := run.exists_of_skillDirs htree hdirs
  have hname : ∃ name ∈ skillNames entries, dir = run.skillsDir.join name := by
    rcases hall with rfl | ⟨name, hname, rfl⟩
    · obtain ⟨name, hname, rfl⟩ := List.mem_map.mp (Path.mem_sort.mp hdir)
      exact ⟨name, hname, rfl⟩
    · exact ⟨name, hname, List.mem_singleton.mp hdir⟩
  obtain ⟨name, hname, rfl⟩ := hname
  exact ⟨name, (hasSkill_iff hfind).mpr hname, isName_of_mem_skillNames (htree.find hfind) hname,
    rfl⟩

end Run

end SkillLint
