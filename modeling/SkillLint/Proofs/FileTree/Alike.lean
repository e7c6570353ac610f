import SkillLint.Proofs.FileTree.Built
import SkillLint.Proofs.FileTree.Walks

/-!
# Trees that are alike

Two trees are **alike** (`Alike`) if the same names lead to the same: to nothing, to a directory,
or to a file with the same content.  The contents of the files at some locations may differ, and
directories may list their entries in different orders.

In trees that are alike the same paths exist, lead to the same locations and to the same kinds of
nodes, and a file reads the same unless it lies where contents may differ (`readText_eq`).  Listings
and walks are the same up to their order (`list_cases`, `walk_perm`), so **what was sorted is the
same** (`filesWithExtension_eq`).  For one path it is enough that the trees are alike where it leads
and below (`AlikeBelow`).
-/

namespace SkillLint.FileTree

/-- What two nodes have at the end of the same names: nothing, directories, or files.  The files
have the same content, unless it may differ. -/
inductive Counterparts (mayDiffer : Prop) : Option Node → Option Node → Prop where
  | nothing : Counterparts mayDiffer none none
  | dirs (entries entries' : List (String × Node)) :
      Counterparts mayDiffer (some (.dir entries)) (some (.dir entries'))
  | files {content content' : ByteArray} (hsame : ¬ mayDiffer → content = content') :
      Counterparts mayDiffer (some (.file content)) (some (.file content'))

/-- The same names lead to the same in both trees, except for the contents of files at locations
where they may differ. -/
structure Alike (mayDiffer : List String → Prop) (tree tree' : FileTree) : Prop where
  workingDir : tree.workingDir = tree'.workingDir
  nodes : ∀ names, Counterparts (mayDiffer names) (tree.top.at? names) (tree'.top.at? names)

theorem Counterparts.refl (mayDiffer : Prop) : ∀ node : Option Node,
    Counterparts mayDiffer node node
  | none => .nothing
  | some (.dir entries) => .dirs entries entries
  | some (.file _) => .files fun _ => rfl

theorem Counterparts.symm {mayDiffer : Prop} {node node' : Option Node}
    (h : Counterparts mayDiffer node node') : Counterparts mayDiffer node' node := by
  cases h with
  | nothing => exact .nothing
  | dirs entries entries' => exact .dirs entries' entries
  | files hsame => exact .files fun hmay => (hsame hmay).symm

/-- Counterparts are there, or not there, together. -/
theorem Counterparts.isSome_eq {mayDiffer : Prop} {node node' : Option Node}
    (h : Counterparts mayDiffer node node') : node.isSome = node'.isSome := by
  cases h <;> rfl

/-- The same step can be taken from counterparts, if it leads to counterparts. -/
theorem Counterparts.stepFrom_eq {top top' : Node} {names : List String} {segment : String}
    {here next : Prop} (hhere : Counterparts here (top.at? names) (top'.at? names))
    (hnext : Counterparts next (top.at? (names ++ [segment])) (top'.at? (names ++ [segment]))) :
    top.stepFrom names segment = top'.stepFrom names segment := by
  rw [Node.stepFrom, Node.stepFrom, hnext.isSome_eq]
  revert hhere
  generalize top.at? names = node
  generalize top'.at? names = node'
  rintro (_ | _ | _) <;> rfl

variable {mayDiffer : List String → Prop} {tree tree' : FileTree} {p dir : Path}
  {names : List String}

/-! ## One path -/

/-- The path leads to the same location in both trees, and the names below it lead to the same. -/
structure AlikeBelow (mayDiffer : List String → Prop) (p : Path) (tree tree' : FileTree) :
    Prop where
  locate_eq : tree.locate p = tree'.locate p
  nodes : ∀ base, tree.locate p = .ok base → ∀ rest, Counterparts (mayDiffer (base ++ rest))
    (tree.top.at? (base ++ rest)) (tree'.top.at? (base ++ rest))

namespace AlikeBelow

/-- A path leads nowhere for the same reason, or to nodes that are counterparts. -/
theorem find_cases (h : AlikeBelow mayDiffer p tree tree') :
    (∃ e, tree.find p = .error e ∧ tree'.find p = .error e) ∨
      ∃ names node node', tree.locate p = .ok names ∧ tree.find p = .ok node ∧
        tree'.find p = .ok node' ∧ Counterparts (mayDiffer names) (some node) (some node') := by
  rcases FileTree.find_cases tree p with ⟨e, hfind, hnames⟩ | ⟨names, node, hfind, hnames, hat⟩
  · rcases FileTree.find_cases tree' p with ⟨e', hfind', hnames'⟩ | ⟨_, _, _, hnames', _⟩
    · obtain rfl : e = e' := by simpa [h.locate_eq, hnames'] using hnames.symm
      exact .inl ⟨e, hfind, hfind'⟩
    · rw [h.locate_eq, hnames'] at hnames
      cases hnames
  · have hnode := h.nodes names hnames []
    rw [List.append_nil, hat] at hnode
    cases hat' : tree'.top.at? names with
    | none =>
      rw [hat'] at hnode
      cases hnode
    | some node' =>
      rw [hat'] at hnode
      have hfind' := find_of_locate (h.locate_eq.symm.trans hnames) hat'
      exact .inr ⟨names, node, node', hnames, hfind, hfind', hnode⟩

theorem pathExists_eq (h : AlikeBelow mayDiffer p tree tree') :
    tree.pathExists p = tree'.pathExists p := by
  rw [pathExists, pathExists]
  rcases h.find_cases with ⟨e, hfind, hfind'⟩ | ⟨_, _, _, -, hfind, hfind', -⟩
  · rw [hfind, hfind']
  · rw [hfind, hfind']
    rfl

theorem isDir_eq (h : AlikeBelow mayDiffer p tree tree') : tree.isDir p = tree'.isDir p := by
  rw [isDir, isDir]
  rcases h.find_cases with ⟨e, hfind, hfind'⟩ | ⟨_, _, _, -, hfind, hfind', hnode⟩
  · rw [hfind, hfind']
  · rw [hfind, hfind']
    cases hnode <;> rfl

theorem isFile_eq (h : AlikeBelow mayDiffer p tree tree') : tree.isFile p = tree'.isFile p := by
  rw [isFile, isFile]
  rcases h.find_cases with ⟨e, hfind, hfind'⟩ | ⟨_, _, _, -, hfind, hfind', hnode⟩
  · rw [hfind, hfind']
  · rw [hfind, hfind']
    cases hnode <;> rfl

/-- **A file reads the same**, unless it lies where contents may differ. -/
theorem readText_eq (h : AlikeBelow mayDiffer p tree tree')
    (hsame : ∀ names, tree.locate p = .ok names → ¬ mayDiffer names) :
    tree.readText p = tree'.readText p := by
  rw [readText, readText]
  rcases h.find_cases with ⟨e, hfind, hfind'⟩ | ⟨names, _, _, hnames, hfind, hfind', hnode⟩
  · rw [hfind, hfind']
  · rw [hfind, hfind']
    cases hnode with
    | dirs entries entries' => rfl
    | files hcontent => rw [hcontent (hsame names hnames)]

/-- The trees are alike below the entries of a directory too. -/
theorem join (h : AlikeBelow mayDiffer p tree tree') {name : String} (hname : IsName name)
    (hlocate : tree.locate p = .ok names) : AlikeBelow mayDiffer (p.join name) tree tree' where
  locate_eq := by
    have hhere := h.nodes names hlocate []
    rw [List.append_nil] at hhere
    rw [locate_join hname hlocate, locate_join hname (h.locate_eq.symm.trans hlocate)]
    exact hhere.stepFrom_eq (h.nodes names hlocate [name])
  nodes := by
    intro base hbase rest
    rw [locate_join_eq hname hlocate hbase, List.append_assoc]
    exact h.nodes names hlocate ([name] ++ rest)

/-- The entries of a directory have the same names. -/
theorem names_perm (h : AlikeBelow mayDiffer dir tree tree') (htree : tree.WellFormed)
    (htree' : tree'.WellFormed) {entries entries' : List (String × Node)}
    (hfind : tree.find dir = .ok (.dir entries)) (hfind' : tree'.find dir = .ok (.dir entries')) :
    (entries.map Prod.fst).Perm (entries'.map Prod.fst) := by
  obtain ⟨names, hnames, hat⟩ := exists_locate_of_find hfind
  obtain ⟨names', hnames', hat'⟩ := exists_locate_of_find hfind'
  obtain rfl : names = names' := Except.ok.inj (hnames.symm.trans (h.locate_eq.trans hnames'))
  refine (List.perm_ext_iff_of_nodup (htree.find hfind).nodup (htree'.find hfind').nodup).mpr
    fun name => ?_
  rw [← isSome_lookup_iff, ← isSome_lookup_iff, ← Node.at?_concat hat, ← Node.at?_concat hat',
    (h.nodes names hnames [name]).isSome_eq]

/-- **Listings are the same up to their order**, or fail for the same reason. -/
theorem list_cases (h : AlikeBelow mayDiffer dir tree tree') (htree : tree.WellFormed)
    (htree' : tree'.WellFormed) :
    (∃ e, tree.list dir = .error e ∧ tree'.list dir = .error e) ∨
      ∃ paths paths', tree.list dir = .ok paths ∧ tree'.list dir = .ok paths' ∧
        paths.Perm paths' ∧ Path.DistinctSteps paths := by
  rcases h.find_cases with ⟨e, hfind, hfind'⟩ | ⟨_, _, _, -, hfind, hfind', hnode⟩
  · refine .inl ⟨e, ?_, ?_⟩
    · rw [list, hfind]
      rfl
    · rw [list, hfind']
      rfl
  · cases hnode with
    | files hcontent =>
      refine .inl ⟨.notADirectory, ?_, ?_⟩
      · rw [list, hfind]
        rfl
      · rw [list, hfind']
        rfl
    | dirs entries entries' =>
      have hdir := htree.find hfind
      refine .inr ⟨_, _, list_of_find hfind, list_of_find hfind',
        (h.names_perm htree htree' hfind hfind').map dir.join, ?_⟩
      refine Path.distinctSteps_map_join (fun name hname => ?_) hdir.nodup dir
      obtain ⟨e, he, rfl⟩ := List.mem_map.mp hname
      exact hdir.isName he

end AlikeBelow

/-! ## All paths -/

namespace Alike

theorem symm (h : Alike mayDiffer tree tree') : Alike mayDiffer tree' tree :=
  ⟨h.workingDir.symm, fun names => (h.nodes names).symm⟩

/-- **Paths lead to the same locations**, as the same steps can be taken. -/
theorem locate_eq (h : Alike mayDiffer tree tree') (p : Path) :
    tree.locate p = tree'.locate p := by
  have hstep : tree.top.stepFrom = tree'.top.stepFrom := by
    funext names segment
    exact (h.nodes names).stepFrom_eq (h.nodes (names ++ [segment]))
  rw [locate, locate, hstep, h.workingDir]

/-- Trees that are alike are so below every path. -/
theorem below (h : Alike mayDiffer tree tree') (p : Path) : AlikeBelow mayDiffer p tree tree' :=
  ⟨h.locate_eq p, fun base _ rest => h.nodes (base ++ rest)⟩

theorem pathExists_eq (h : Alike mayDiffer tree tree') : tree.pathExists = tree'.pathExists :=
  funext fun p => (h.below p).pathExists_eq

theorem isDir_eq (h : Alike mayDiffer tree tree') : tree.isDir = tree'.isDir :=
  funext fun p => (h.below p).isDir_eq

theorem isFile_eq (h : Alike mayDiffer tree tree') : tree.isFile = tree'.isFile :=
  funext fun p => (h.below p).isFile_eq

/-- **A file reads the same**, unless it lies where contents may differ. -/
theorem readText_eq (h : Alike mayDiffer tree tree')
    (hsame : ∀ names, tree.locate p = .ok names → ¬ mayDiffer names) :
    tree.readText p = tree'.readText p :=
  (h.below p).readText_eq hsame

/-- **Listings are the same up to their order**, or fail for the same reason. -/
theorem list_cases (h : Alike mayDiffer tree tree') (htree : tree.WellFormed)
    (htree' : tree'.WellFormed) (dir : Path) :
    (∃ e, tree.list dir = .error e ∧ tree'.list dir = .error e) ∨
      ∃ paths paths', tree.list dir = .ok paths ∧ tree'.list dir = .ok paths' ∧
        paths.Perm paths' ∧ Path.DistinctSteps paths :=
  (h.below dir).list_cases htree htree'

/-! ## Walks -/

/-- A path that a walk meets, and whether it is that of a file. -/
def shape (e : Path × Node) : Path × Bool := (e.1, e.2.isFile)

theorem mem_shape_walk (h : Alike mayDiffer tree tree') (htree : tree.WellFormed)
    (htree' : tree'.WellFormed) {e : Path × Bool} (he : e ∈ (tree.walk dir).map shape) :
    e ∈ (tree'.walk dir).map shape := by
  obtain ⟨⟨q, found⟩, hwalk, rfl⟩ := List.mem_map.mp he
  obtain ⟨base, names, hbase, -, hfound, rfl⟩ := locate_of_mem_walk htree hwalk
  have hnode := h.nodes (base ++ names)
  rw [hfound] at hnode
  cases hfound' : tree'.top.at? (base ++ names) with
  | none =>
    rw [hfound'] at hnode
    cases hnode
  | some found' =>
    rw [hfound'] at hnode
    have hwalk' : (dir.joinAll names, found') ∈ tree'.walk dir :=
      mem_walk_of_at? htree' ((h.locate_eq dir).symm.trans hbase) hfound'
    refine List.mem_map.mpr ⟨_, hwalk', ?_⟩
    cases hnode <;> rfl

theorem nodup_shape_walk (htree : tree.WellFormed) (dir : Path) :
    ((tree.walk dir).map shape).Nodup := by
  refine List.Nodup.of_map Prod.fst ?_
  rw [List.map_map]
  exact (distinctSteps_walk htree dir).nodup

/-- **Walks meet the same paths**, and files in the same places. -/
theorem walk_perm (h : Alike mayDiffer tree tree') (htree : tree.WellFormed)
    (htree' : tree'.WellFormed) (dir : Path) :
    ((tree.walk dir).map shape).Perm ((tree'.walk dir).map shape) :=
  (List.perm_ext_iff_of_nodup (nodup_shape_walk htree dir) (nodup_shape_walk htree' dir)).mpr
    fun _ => ⟨h.mem_shape_walk htree htree', h.symm.mem_shape_walk htree' htree⟩

/-- **The files that a walk selects are the same.** -/
theorem filesWithExtension_eq (h : Alike mayDiffer tree tree') (htree : tree.WellFormed)
    (htree' : tree'.WellFormed) : tree.filesWithExtension = tree'.filesWithExtension := by
  funext dir extension
  have hselected : ∀ tree : FileTree,
      ((tree.walk dir).filter (isFileWith extension)).map Prod.fst =
        (((tree.walk dir).map shape).filter
          fun e => e.2 && e.1.extension? == some extension).map Prod.fst := by
    intro tree
    rw [List.filter_map, List.map_map]
    rfl
  have hdistinct : Path.DistinctSteps
      (((tree.walk dir).filter (isFileWith extension)).map Prod.fst) :=
    (distinctSteps_walk htree dir).sublist (List.filter_sublist.map Prod.fst)
  rw [FileTree.filesWithExtension_eq, FileTree.filesWithExtension_eq]
  refine Path.sort_eq_of_perm hdistinct ?_
  rw [hselected tree, hselected tree']
  exact ((h.walk_perm htree htree' dir).filter _).map Prod.fst

end Alike

/-! ## Writing over a file -/

/-- A file is the counterpart of what is written over it, and nothing else changes. -/
theorem counterparts_changeAt {content : ByteArray} (written : ByteArray) : ∀ (names : List String)
    {node : Node}, node.at? names = some (.file content) → ∀ names', Counterparts (names' = names)
      (node.at? names') ((Node.changeAt (fun _ => .file written) names (some node)).at? names')
  | [], node, hfile, names' => by
      obtain rfl : node = .file content := by simpa using hfile
      cases names' with
      | nil => exact .files fun hne => absurd rfl hne
      | cons name rest => exact .nothing
  | name :: rest, .file _, hfile, _ => by cases hfile
  | name :: rest, .dir entries, hfile, names' => by
      rw [Node.at?_dir_cons, Option.bind_eq_some_iff] at hfile
      obtain ⟨child, hchild, hfile⟩ := hfile
      cases names' with
      | nil => exact .dirs _ _
      | cons name' rest' =>
        rw [Node.changeAt, Node.at?_dir_cons, Node.at?_dir_cons, lookup_changeEntry]
        by_cases hname : name' = name
        · subst hname
          have ih := counterparts_changeAt written rest hfile rest'
          simpa [Node.entries, hchild] using ih
        · rw [if_neg hname]
          exact .refl _ _

/-- **Writing over a file leaves the rest of the tree as it is.** -/
theorem alike_writeFile {content : ByteArray}
    (hfile : tree.top.at? (tree.names p) = some (.file content)) (written : ByteArray) :
    Alike (· = tree.names p) tree (tree.writeFile p written) where
  workingDir := rfl
  nodes := counterparts_changeAt written (tree.names p) hfile

end SkillLint.FileTree
