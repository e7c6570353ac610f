import SkillLint.Proofs.FileTree.Alike

/-!
# Trees that differ in one entry

Two trees are the same **beside an entry** (`SameBeside`) if all names that do not lead to or
through it lead to the same.  Paths into the directory of the entry then lead to the same, under
every other name (`SameBeside.below_join`).

What is asked for is that the directory is found in both trees.  It is **if the entry is no
directory**: a walk that ends in a directory has only passed through directories, so it goes the
same way in the other tree (`locate_of_dirs`).
-/

namespace SkillLint.FileTree

variable {tree tree' : FileTree} {p : Path} {name : String} {names base entry : List String}

/-! ## Walks through directories -/

/-- Steps start from directories. -/
theorem exists_dir_of_stepFrom {top : Node} {segment : String}
    (hstep : top.stepFrom names segment = .ok base) :
    ∃ entries, top.at? names = some (.dir entries) := by
  rw [Node.stepFrom] at hstep
  split at hstep
  · cases hstep
  · cases hstep
  · rename_i entries hdir
    exact ⟨entries, hdir⟩

/-- The directories of the first node are directories of the second. -/
def DirsWithin (top top' : Node) : Prop := ∀ names entries, top.at? names = some (.dir entries) →
  ∃ entries', top'.at? names = some (.dir entries')

/-- A step between directories can be taken where these are directories too. -/
theorem DirsWithin.stepFrom {top top' : Node} {segment : String}
    {entries : List (String × Node)} (hdirs : DirsWithin top top')
    (hstep : top.stepFrom names segment = .ok base) (hbase : top.at? base = some (.dir entries)) :
    top'.stepFrom names segment = .ok base := by
  obtain ⟨here, hhere⟩ := exists_dir_of_stepFrom hstep
  obtain ⟨here', hhere'⟩ := hdirs names here hhere
  simp only [Node.stepFrom, hhere] at hstep
  simp only [Node.stepFrom, hhere']
  split at hstep
  · rename_i hdot
    rw [if_pos hdot]
    exact hstep
  · rename_i hdot
    rw [if_neg hdot]
    split at hstep
    · rename_i hup
      rw [if_pos hup]
      exact hstep
    · rename_i hup
      rw [if_neg hup]
      split at hstep
      · obtain rfl := Except.ok.inj hstep
        obtain ⟨there', hthere'⟩ := hdirs _ _ hbase
        rw [hthere']
        rfl
      · cases hstep

/-- A walk to a directory passes through directories only. -/
theorem DirsWithin.walk {top top' : Node} {entries : List (String × Node)}
    (hdirs : DirsWithin top top') (hbase : top.at? base = some (.dir entries)) :
    ∀ (segments : List String) {names : List String},
      segments.foldlM top.stepFrom names = .ok base → segments.foldlM top'.stepFrom names = .ok base
  | [], _, hwalk => hwalk
  | segment :: rest, names, hwalk => by
      rw [List.foldlM_cons, bind_eq_ok_iff] at hwalk
      obtain ⟨next, hstep, hrest⟩ := hwalk
      have hnext : ∃ entries, top.at? next = some (.dir entries) := by
        cases rest with
        | nil =>
          obtain rfl := Except.ok.inj hrest
          exact ⟨entries, hbase⟩
        | cons segment' rest =>
          rw [List.foldlM_cons, bind_eq_ok_iff] at hrest
          obtain ⟨_, hstep', -⟩ := hrest
          exact exists_dir_of_stepFrom hstep'
      obtain ⟨_, hnext⟩ := hnext
      rw [List.foldlM_cons, hdirs.stepFrom hstep hnext]
      exact hdirs.walk hbase rest hrest

/-- **A path to a directory leads there in every tree with the same directories.** -/
theorem locate_of_dirs {entries : List (String × Node)}
    (hworking : tree.workingDir = tree'.workingDir) (hdirs : DirsWithin tree.top tree'.top)
    (hbase : tree.top.at? base = some (.dir entries)) (hlocate : tree.locate p = .ok base) :
    tree'.locate p = .ok base := by
  rw [locate] at hlocate ⊢
  rw [← hworking]
  split at hlocate
  · cases hlocate
  · rename_i hne
    rw [if_neg hne]
    split at hlocate
    · rename_i habsolute
      rw [if_pos habsolute]
      exact hdirs.walk hbase _ hlocate
    · rename_i habsolute
      rw [if_neg habsolute]
      exact hdirs.walk hbase _ hlocate

/-! ## The directory of an entry -/

/-- A dot stays in a directory, so a step may be taken after it. -/
theorem stepFrom_dot_bind (top : Node) (names : List String) (segment : String) :
    (top.stepFrom names "." >>= fun names => top.stepFrom names segment) =
      top.stepFrom names segment := by
  simp only [Node.stepFrom]
  cases hhere : top.at? names with
  | none => rfl
  | some node =>
    cases node with
    | file content => rfl
    | dir entries => simp [bind, Except.bind, hhere]

/-- **An entry is looked for in the directory that the path with a dot leads to.**  The path itself
may be empty, and then leads nowhere. -/
theorem locate_join_bind (tree : FileTree) (hname : IsName name) (p : Path) :
    tree.locate (p.join name) =
      tree.locate (p.join ".") >>= fun base => tree.top.stepFrom base name := by
  obtain ⟨init, tail, -, -, -, hjoin⟩ := p.exists_segments_join
  have hrelative : ".".toList.head? ≠ some '/' := by decide
  have hsegments : (p.join ".").segments = init ++ ["."] := hjoin hrelative
  have hne : (p.join ".").text ≠ "" := Path.text_join_ne_of_relative hrelative (by decide) p
  have hwalk : ∀ before : List String,
      (before ++ (init ++ [name])).foldlM tree.top.stepFrom [] =
        (before ++ (init ++ ["."])).foldlM tree.top.stepFrom [] >>=
          fun base => tree.top.stepFrom base name := by
    intro before
    have hlast : ∀ segment, (before ++ (init ++ [segment])).foldlM tree.top.stepFrom [] =
        (before ++ init).foldlM tree.top.stepFrom [] >>=
          fun names => tree.top.stepFrom names segment := by
      intro segment
      rw [← List.append_assoc, List.foldlM_append]
      simp
    rw [hlast, hlast]
    cases (before ++ init).foldlM tree.top.stepFrom [] with
    | error reason => rfl
    | ok names => exact (stepFrom_dot_bind tree.top names name).symm
  rw [locate, locate, if_neg (Path.text_join_ne hname p), if_neg hne,
    Path.isAbsolute_join (Path.head?_ne_slash hname), Path.isAbsolute_join hrelative, hsegments,
    hjoin (Path.head?_ne_slash hname), Path.segments_of_isName hname]
  split
  · exact hwalk []
  · exact hwalk tree.workingDir

/-! ## One entry -/

/-- All names that do not lead to the entry, or through it, lead to the same in both trees. -/
structure SameBeside (entry : List String) (tree tree' : FileTree) : Prop where
  workingDir : tree.workingDir = tree'.workingDir
  nodes : ∀ names, ¬ entry <+: names →
    Counterparts False (tree.top.at? names) (tree'.top.at? names)

namespace SameBeside

theorem symm (h : SameBeside entry tree tree') : SameBeside entry tree' tree :=
  ⟨h.workingDir.symm, fun names hnames => (h.nodes names hnames).symm⟩

/-- Another name in the directory does not lead to the entry. -/
theorem not_through_other {other : String} (hother : other ≠ name) (rest : List String) :
    ¬ base ++ [name] <+: base ++ ([other] ++ rest) := by
  rw [List.prefix_append_right_inj, List.singleton_append, List.cons_prefix_cons]
  exact fun h => hother h.1.symm

/-- **Beside the entry nothing is different**: paths into its directory under other names lead to the
same. -/
theorem below_join (h : SameBeside (base ++ [name]) tree tree')
    (hbase : tree.locate (p.join ".") = .ok base) (hbase' : tree'.locate (p.join ".") = .ok base)
    {other : String} (hother : IsName other) (hne : other ≠ name) :
    AlikeBelow (fun _ => False) (p.join other) tree tree' where
  locate_eq := by
    have hhere : ¬ base ++ [name] <+: base := fun hprefix =>
      absurd hprefix.length_le (by simp)
    rw [locate_join_bind tree hother, locate_join_bind tree' hother, hbase, hbase']
    exact (h.nodes base hhere).stepFrom_eq
      (h.nodes (base ++ [other]) (not_through_other hne []))
  nodes := by
    intro names hnames rest
    rw [locate_join_bind tree hother, hbase] at hnames
    rw [eq_of_stepFrom_isName hother hnames, List.append_assoc]
    exact h.nodes _ (not_through_other hne rest)

/-- Where the entry is no directory, all directories are somewhere else. -/
theorem dirsWithin (h : SameBeside entry tree tree')
    (hfile : ∀ entries, tree.top.at? entry ≠ some (.dir entries)) :
    DirsWithin tree.top tree'.top := by
  intro names entries hdir
  have hbeside : ¬ entry <+: names := by
    rintro ⟨rest, rfl⟩
    rw [Node.at?_append] at hdir
    obtain ⟨node, hentry, hrest⟩ := Option.bind_eq_some_iff.mp hdir
    cases node with
    | dir entries' => exact hfile entries' hentry
    | file content =>
      cases rest with
      | nil => cases hrest
      | cons name rest => cases hrest
  have hnode := h.nodes names hbeside
  rw [hdir] at hnode
  generalize hdir' : tree'.top.at? names = node' at hnode
  cases hnode with
  | dirs entries entries' => exact ⟨entries', rfl⟩

/-- **The directory of an entry that is no directory** is found in both trees, if the entry is found
in one. -/
theorem exists_base (h : SameBeside entry tree tree') (hname : IsName name)
    (hfile : ∀ entries, tree.top.at? entry ≠ some (.dir entries))
    (hentry : tree.locate (p.join name) = .ok entry) :
    ∃ base, entry = base ++ [name] ∧ tree.locate (p.join ".") = .ok base ∧
      tree'.locate (p.join ".") = .ok base := by
  rw [locate_join_bind tree hname, bind_eq_ok_iff] at hentry
  obtain ⟨base, hbase, hstep⟩ := hentry
  obtain ⟨entries, hdir⟩ := exists_dir_of_stepFrom hstep
  exact ⟨base, eq_of_stepFrom_isName hname hstep, hbase,
    locate_of_dirs h.workingDir (h.dirsWithin hfile) hdir hbase⟩

end SameBeside

/-! ## Changing an entry -/

/-- What is built at an entry of a directory changes nothing beside it. -/
theorem counterparts_changeAt_beside {f : Option Node → Node} {entries : List (String × Node)} :
    ∀ (base : List String) {top : Node}, top.at? base = some (.dir entries) →
      ∀ names, ¬ base ++ [name] <+: names → Counterparts False (top.at? names)
        ((Node.changeAt f (base ++ [name]) (some top)).at? names)
  | [], .dir _, _, [], _ => .dirs _ _
  | _ :: _, .dir _, _, [], _ => .dirs _ _
  | [], .dir entries, _, n :: rest, hbeside => by
      have hne : n ≠ name := by
        rintro rfl
        exact hbeside ⟨rest, rfl⟩
      rw [List.nil_append, Node.changeAt, Node.at?_dir_cons, Node.at?_dir_cons, lookup_changeEntry,
        if_neg hne]
      exact .refl _ _
  | b :: base, .dir entries, hdir, n :: rest, hbeside => by
      rw [Node.at?_dir_cons, Option.bind_eq_some_iff] at hdir
      obtain ⟨child, hchild, hdir⟩ := hdir
      rw [List.cons_append, Node.changeAt, Node.at?_dir_cons, Node.at?_dir_cons, lookup_changeEntry]
      by_cases hn : n = b
      · subst hn
        have hrest : ¬ base ++ [name] <+: rest := fun hprefix =>
          hbeside (List.cons_prefix_cons.mpr ⟨rfl, hprefix⟩)
        have ih := counterparts_changeAt_beside (f := f) base hdir rest hrest
        simpa [Node.entries, hchild] using ih
      · rw [if_neg hn]
        exact .refl _ _
  | [], .file _, hdir, _, _ => by cases hdir
  | _ :: _, .file _, hdir, _, _ => by cases hdir

/-- **A change of one entry** leaves the tree as it is beside the entry. -/
theorem sameBeside_change {entries : List (String × Node)}
    (hdir : tree.top.at? base = some (.dir entries)) (hnames : tree.names p = base ++ [name])
    (f : Option Node → Node) : SameBeside (base ++ [name]) tree (tree.change p f) where
  workingDir := rfl
  nodes := by
    rw [change, hnames]
    exact counterparts_changeAt_beside base hdir

end SkillLint.FileTree
