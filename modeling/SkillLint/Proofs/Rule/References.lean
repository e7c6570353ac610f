import SkillLint.Proofs.FileTree.Alike
import SkillLint.Rule.Registry

/-!
# What the rules about references see

The rules about references look for the directory of references, list it and read the documents in
it.  **They answer the same in trees that are alike below that directory**
(`issues_references_congr`).
-/

namespace SkillLint.Rule

open FileTree

variable {mayDiffer : List String → Prop} {tree tree' : FileTree} {dir file : Path} {skill : Skill}

/-- The markdown entries of a directory are named entries. -/
theorem exists_of_mem_markdownEntries (htree : tree.WellFormed)
    (hfile : file ∈ markdownEntries tree dir) :
    ∃ entries name, tree.find dir = .ok (.dir entries) ∧ IsName name ∧ file = dir.join name := by
  rw [markdownEntries] at hfile
  cases hfind : tree.find dir with
  | error e => simp [FileTree.list, hfind, bind, Except.bind] at hfile
  | ok node =>
    cases node with
    | file content => simp [FileTree.list, hfind, bind, Except.bind] at hfile
    | dir entries =>
      rw [FileTree.list_of_find hfind] at hfile
      obtain ⟨hlisted, -⟩ := List.mem_filter.mp (Path.mem_sort.mp hfile)
      obtain ⟨name, hname, rfl⟩ := List.mem_map.mp hlisted
      obtain ⟨e, he, rfl⟩ := List.mem_map.mp hname
      exact ⟨entries, e.1, rfl, (htree.find hfind).isName he, rfl⟩

/-- The markdown entries of a directory are the same, below which the trees are alike. -/
theorem markdownEntries_eq_of_alikeBelow (h : AlikeBelow mayDiffer dir tree tree')
    (htree : tree.WellFormed) (htree' : tree'.WellFormed) :
    markdownEntries tree dir = markdownEntries tree' dir := by
  rw [markdownEntries, markdownEntries]
  rcases h.list_cases htree htree' with
    ⟨e, hlist, hlist'⟩ | ⟨_, _, hlist, hlist', hperm, hsteps⟩
  · rw [hlist, hlist']
  · rw [hlist, hlist']
    exact Path.sort_eq_of_perm (hsteps.sublist List.filter_sublist) (hperm.filter _)

/-- They read the same too, unless contents may differ. -/
theorem readText_eq_of_mem_markdownEntries (h : AlikeBelow (fun _ => False) dir tree tree')
    (htree : tree.WellFormed) (hfile : file ∈ markdownEntries tree dir) :
    tree.readText file = tree'.readText file := by
  obtain ⟨entries, name, hfind, hname, rfl⟩ := exists_of_mem_markdownEntries htree hfile
  obtain ⟨names, hnames, -⟩ := exists_locate_of_find hfind
  exact (h.join hname hnames).readText_eq fun _ _ => id

theorem registryFor_references (limits : Limits) : registryFor limits (some .references) =
    [referencesDirectory, referenceCount, nonStandardHeaders limits.markerScanLines] :=
  rfl

/-- **The rules about references answer the same** in trees that are alike below the directory of
references. -/
theorem issues_references_congr (limits : Limits)
    (h : AlikeBelow (fun _ => False) skill.referencesPath tree tree') (htree : tree.WellFormed)
    (htree' : tree'.WellFormed) :
    issues (registryFor limits (some .references)) tree skill =
      issues (registryFor limits (some .references)) tree' skill := by
  have hentries := markdownEntries_eq_of_alikeBelow h htree htree'
  have hdirectory : referencesDirectory.check tree skill = referencesDirectory.check tree' skill := by
    simp only [referencesDirectory, h.pathExists_eq, h.isDir_eq]
  have hcount : referenceCount.check tree skill = referenceCount.check tree' skill := by
    simp only [referenceCount, h.isDir_eq, hentries]
  have hmarkers : (nonStandardHeaders limits.markerScanLines).check tree skill =
      (nonStandardHeaders limits.markerScanLines).check tree' skill := by
    simp only [nonStandardHeaders, h.isDir_eq, ← hentries]
    split
    · refine List.flatMap_congr fun file hfile => ?_
      rw [readText_eq_of_mem_markdownEntries h htree hfile]
    · rfl
  rw [registryFor_references]
  simp only [issues, List.flatMap_cons, List.flatMap_nil, hdirectory, hcount, hmarkers]

end SkillLint.Rule
