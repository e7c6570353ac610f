import SkillLint.Proofs.FileTree.Built
import SkillLint.Proofs.FileTree.Beside
import SkillLint.Proofs.Path.Spelling

/-!
# Directories under another spelling

Empty segments and single dots count for nothing on the way to a directory (`walk_filter_iff`): a
step by one of them stays where it is, as long as that is a directory.  So a directory is where its
names lead (`place_eq_ok_iff`), and these can be read off the steps of a path (`names_eq`).  **Two
paths with the same steps lead to the same directory** (`isDir_of_components_eq`), and a directory
is found next to itself, through the parent of its path (`isDir_parent_join`).
-/

namespace SkillLint

namespace Path

/-- The names and double dots among the steps. -/
def innerTexts (steps : List Component) : List String :=
  steps.filterMap fun
    | .root | .current => none
    | .parent => some ".."
    | .normal name => some name

/-- The segments that are steps are those that count. -/
theorem innerTexts_filterMap (segments : List String) :
    innerTexts (segments.filterMap Component.ofSegment?) =
      segments.filter fun segment => segment ≠ "" ∧ segment ≠ "." := by
  induction segments with
  | nil => rfl
  | cons segment rest ih =>
    rw [List.filter_cons, ← ih, innerTexts, innerTexts, List.filterMap_cons, Component.ofSegment?]
    by_cases hskip : segment = "" ∨ segment = "."
    · rcases hskip with rfl | rfl <;> rfl
    · obtain ⟨hempty, hdot⟩ := not_or.mp hskip
      by_cases hparent : segment = ".."
      · subst hparent
        rfl
      · simp [hempty, hdot, hparent]

theorem innerTexts_components (p : Path) : innerTexts p.components =
    p.segments.filter fun segment => segment ≠ "" ∧ segment ≠ "." := by
  rw [← innerTexts_filterMap, components]
  split
  · rfl
  · split
    · rename_i rest hsegments
      rw [hsegments]
      rfl
    · rfl

theorem isAbsolute_eq (p : Path) : p.isAbsolute = (p.components.head? == some .root) := by
  cases habsolute : p.isAbsolute with
  | true => rw [components, if_pos habsolute]; rfl
  | false =>
    have hne : p.components.head? ≠ some .root := by
      rw [components, if_neg (by rw [habsolute]; exact Bool.false_ne_true)]
      split
      · intro hhead
        cases hhead
      · intro hhead
        have hmem := List.mem_of_mem_head? hhead
        obtain ⟨segment, -, hroot⟩ := List.mem_filterMap.mp hmem
        rw [Component.ofSegment?] at hroot
        split at hroot
        · cases hroot
        · split at hroot <;> cases hroot
    exact (beq_false_of_ne hne).symm

end Path

namespace FileTree

variable {tree : FileTree} {p q : Path} {name : String}

/-! ## Walks to directories -/

/-- Who walks to a directory starts from one. -/
theorem Place.isDir_of_walk {segments : List String} {here there : Place}
    (hthere : there.node.isDir) (hwalk : segments.foldlM Place.step here = .ok there) :
    here.node.isDir := by
  cases segments with
  | nil =>
    obtain rfl := Except.ok.inj hwalk
    exact hthere
  | cons segment rest =>
    rw [List.foldlM_cons, bind_eq_ok_iff] at hwalk
    obtain ⟨next, hstep, -⟩ := hwalk
    obtain ⟨node, above⟩ := here
    cases node with
    | file content => cases hstep
    | dir entries => rfl

/-- An empty segment or a dot stays in a directory. -/
theorem Place.step_of_skipped {here : Place} {segment : String} (hhere : here.node.isDir)
    (hsegment : segment = "" ∨ segment = ".") : here.step segment = .ok here := by
  obtain ⟨node, above⟩ := here
  cases node with
  | file content => cases hhere
  | dir entries => exact if_pos hsegment

/-- **Segments that do not count may be left out** on the way to a directory. -/
theorem Place.walk_filter_iff {there : Place} (hthere : there.node.isDir) (segments : List String)
    (here : Place) :
    (segments.filter fun segment => segment ≠ "" ∧ segment ≠ ".").foldlM Place.step here =
        .ok there ↔ segments.foldlM Place.step here = .ok there := by
  induction segments generalizing here with
  | nil => exact Iff.rfl
  | cons segment rest ih =>
    by_cases hskip : segment = "" ∨ segment = "."
    · have hdrop : ¬ (segment ≠ "" ∧ segment ≠ ".") := fun h => hskip.elim h.1 h.2
      rw [List.filter_cons, if_neg (by simpa using hdrop), ih]
      constructor
      · intro hwalk
        rw [List.foldlM_cons, step_of_skipped (isDir_of_walk hthere hwalk) hskip]
        exact hwalk
      · intro hwalk
        have hhere := isDir_of_walk hthere hwalk
        rw [List.foldlM_cons, step_of_skipped hhere hskip] at hwalk
        exact hwalk
    · have hkeep : segment ≠ "" ∧ segment ≠ "." := not_or.mp hskip
      rw [List.filter_cons, if_pos (by simpa using hkeep), List.foldlM_cons, List.foldlM_cons,
        bind_eq_ok_iff, bind_eq_ok_iff]
      exact exists_congr fun next => and_congr_right fun _ => ih next

/-- The names of a path can be read off its steps. -/
theorem names_eq (tree : FileTree) (p : Path) : tree.names p =
    if p.components.head? == some .root then Path.innerTexts p.components
    else tree.workingDir ++ Path.innerTexts p.components := by
  rw [names, Path.innerTexts_components, Path.isAbsolute_eq]

/-- **A directory is where the names of its path lead.** -/
theorem place_eq_ok_iff {there : Place} (hne : p.text ≠ "") (hthere : there.node.isDir) :
    tree.place p = .ok there ↔
      (tree.names p).foldlM Place.step tree.topPlace = .ok there := by
  rw [place, if_neg hne, names]
  split
  · exact (Place.walk_filter_iff hthere _ _).symm
  · rw [List.foldlM_append, List.foldlM_append, bind_eq_ok_iff, bind_eq_ok_iff]
    exact exists_congr fun here => and_congr_right fun _ => (Place.walk_filter_iff hthere _ _).symm

/-- **Paths with the same steps lead to the same directory.** -/
theorem isDir_of_components_eq (hp : p.text ≠ "") (hq : q.text ≠ "")
    (hsteps : p.components = q.components) (hdir : tree.isDir p = true) : tree.isDir q = true := by
  obtain ⟨entries, hfind⟩ := isDir_eq_true_iff.mp hdir
  obtain ⟨there, hplace, hnode⟩ := map_eq_ok_iff.mp hfind
  have hthere : there.node.isDir := by rw [hnode]; rfl
  have hnames : tree.names p = tree.names q := by rw [names_eq, names_eq, hsteps]
  have hplace' : tree.place q = .ok there :=
    (place_eq_ok_iff hq hthere).mpr (hnames ▸ (place_eq_ok_iff hp hthere).mp hplace)
  rw [isDir_eq_true_iff, find, hplace']
  exact ⟨entries, congrArg Except.ok hnode⟩

/-! ## Next to itself -/

/-- A path that leads into a directory shows that the directory is there. -/
theorem isDir_join_dot (hname : IsName name) (hexists : tree.pathExists (p.join name) = true) :
    tree.isDir (p.join ".") = true := by
  rcases find_cases tree (p.join name) with ⟨e, hfind, -⟩ | ⟨names, node, -, hnames, -⟩
  · rw [pathExists, hfind] at hexists
    cases hexists
  · rw [locate_join_bind tree hname, bind_eq_ok_iff] at hnames
    obtain ⟨base, hbase, hstep⟩ := hnames
    obtain ⟨entries, hdir⟩ := exists_dir_of_stepFrom hstep
    exact isDir_eq_true_iff.mpr ⟨entries, find_of_locate hbase hdir⟩

/-- **A directory with an entry is found next to itself**: by its name, from the parent of its
path. -/
theorem isDir_parent_join {dir : Path} {entry : String} (hname : IsName name) (hentry : IsName entry)
    (hexists : tree.pathExists ((dir.join name).join entry) = true) :
    tree.isDir (((dir.join name).parent?.getD (dir.join name)).join name) = true := by
  have hdot : ((dir.join name).join ".").components = (dir.join name).components := by
    rw [Path.components_join_of_relative (by decide) (dir.join name) fun hempty =>
      absurd (congrArg Path.text hempty) (Path.text_join_ne hname dir)]
    exact List.append_nil _
  have hsteps : ((dir.join name).join ".").components =
      ((Path.ofComponents dir.components).join name).components := by
    rw [hdot, Path.components_join hname, Path.components_join hname,
      Path.components_ofComponents (Path.steps_components dir)]
  rw [Path.parent?_join_eq hname, Option.getD_some]
  exact isDir_of_components_eq (Path.text_join_ne_of_relative (by decide) (by decide) _)
    (Path.text_join_ne hname _) hsteps (isDir_join_dot hentry hexists)

/-- **The parent of the path of an entry leads where the directory leads**, by any text that is
joined to it: a name, dots, or an absolute path. -/
theorem isDir_parent_join_eq {dir : Path} {text : String} (hdir : tree.isDir dir = true)
    (hname : IsName name) (hne : text ≠ "") :
    tree.isDir (((dir.join name).parent?.getD (dir.join name)).join text) =
      tree.isDir (dir.join text) := by
  rw [Path.parent?_join_eq hname, Option.getD_some]
  by_cases habsolute : text.toList.head? = some '/'
  · rw [Path.join, if_pos habsolute, Path.join, if_pos habsolute]
  · have hempty : dir ≠ ⟨""⟩ := by
      rintro rfl
      cases hdir
    have hsteps := Path.components_ofComponents (Path.steps_components dir)
    have hempty' : Path.ofComponents dir.components ≠ ⟨""⟩ := by
      intro h
      rw [h] at hsteps
      exact hempty (Path.eq_of_components_eq_nil hsteps.symm)
    have heq : ((Path.ofComponents dir.components).join text).components =
        (dir.join text).components := by
      rw [Path.components_join_of_relative habsolute _ fun h => absurd h hempty',
        Path.components_join_of_relative habsolute _ fun h => absurd h hempty, hsteps]
    have hne' := Path.text_join_ne_of_relative habsolute hne
    rw [Bool.eq_iff_iff]
    exact ⟨isDir_of_components_eq (hne' _) (hne' _) heq,
      isDir_of_components_eq (hne' _) (hne' _) heq.symm⟩

end FileTree

end SkillLint
