import SkillLint.FileTree.Walk
import SkillLint.Proofs.FileTree.Location
import SkillLint.Proofs.Path.Order
import SkillLint.Proofs.Text.ByteOrder

/-!
# What a walk meets

In a well-formed tree **a walk meets what names lead to, each once**: the path walked from,
extended by names (`joinAll`), comes with the node at the end of these names (`mem_walkFrom_iff`),
and no two paths of a walk are spellings of the same steps (`distinctSteps_walkFrom`).  So the
files that a walk selects are the ones with the extension, in strictly increasing order
(`mem_filesWithExtension_iff`, `pairwise_lt_filesWithExtension`).
-/

namespace SkillLint

namespace Path

/-- The path extended by names, one after another. -/
def joinAll (p : Path) (names : List String) : Path := names.foldl join p

@[simp] theorem joinAll_nil (p : Path) : p.joinAll [] = p := rfl

@[simp] theorem joinAll_cons (p : Path) (name : String) (names : List String) :
    p.joinAll (name :: names) = (p.join name).joinAll names := rfl

/-- Names are the last steps of a path that they were joined to. -/
theorem components_joinAll : ∀ {names : List String} (p : Path), (∀ name ∈ names, IsName name) →
    (p.joinAll names).components = p.components ++ names.map Component.normal
  | [], p, _ => by simp
  | name :: rest, p, hnames => by
      obtain ⟨hname, hrest⟩ := List.forall_mem_cons.mp hnames
      rw [joinAll_cons, components_joinAll (p.join name) hrest, components_join hname]
      simp

/-- Different names make different paths. -/
theorem eq_of_joinAll_eq {p : Path} {names names' : List String}
    (hnames : ∀ name ∈ names, IsName name) (hnames' : ∀ name ∈ names', IsName name)
    (heq : p.joinAll names = p.joinAll names') : names = names' := by
  have hsteps := congrArg components heq
  rw [components_joinAll p hnames, components_joinAll p hnames', List.append_cancel_left_eq] at hsteps
  exact List.map_injective_iff.mpr (fun _ _ => Component.normal.inj) hsteps

/-- Distinct names make paths with distinct steps. -/
theorem distinctSteps_map_join {names : List String} (hnames : ∀ name ∈ names, IsName name)
    (hnodup : names.Nodup) (p : Path) : DistinctSteps (names.map p.join) := by
  rw [DistinctSteps, List.map_map]
  refine hnodup.map_on fun name hname other hother heq => ?_
  rw [Function.comp_apply, Function.comp_apply, components_join (hnames name hname),
    components_join (hnames other hother)] at heq
  simpa using heq

/-- Entries of a directory are in the order of the bytes of their names. -/
theorem bytes_lt_of_lt_join {p : Path} {a b : String} (ha : IsName a) (hb : IsName b)
    (h : (p.join a).Lt (p.join b)) : Text.bytes a < Text.bytes b := by
  obtain ⟨hle, hne⟩ := h
  rw [le, components_join ha, components_join hb, componentsLe_append_singleton] at hle
  rw [components_join ha, components_join hb] at hne
  have hab : a ≤ b := of_decide_eq_true hle
  exact Text.bytes_lt_of_lt (lt_of_le_of_ne hab (by simpa using hne))

end Path

namespace FileTree

variable {p q : Path} {node found : Node} {names : List String}

theorem walkEntries_eq (p : Path) (entries : List (String × Node)) :
    Node.walkFrom.walkEntries p entries = entries.flatMap fun e => e.2.walkFrom (p.join e.1) := by
  induction entries with
  | nil => rfl
  | cons e rest ih => rw [Node.walkFrom.walkEntries, ih, List.flatMap_cons]

theorem walkFrom_dir (p : Path) (entries : List (String × Node)) :
    (Node.dir entries).walkFrom p =
      (p, .dir entries) :: entries.flatMap fun e => e.2.walkFrom (p.join e.1) := by
  rw [Node.walkFrom, walkEntries_eq]

/-- **A walk meets exactly what names lead to.** -/
theorem mem_walkFrom_iff (h : node.WellFormed) : ∀ {p q : Path},
    (q, found) ∈ node.walkFrom p ↔ ∃ names, node.at? names = some found ∧ q = p.joinAll names := by
  induction h with
  | file content =>
    intro p q
    rw [Node.walkFrom, List.mem_singleton, Prod.mk.injEq]
    constructor
    · rintro ⟨rfl, rfl⟩
      exact ⟨[], rfl, rfl⟩
    · rintro ⟨names, hfound, rfl⟩
      cases names with
      | nil => exact ⟨rfl, (Option.some.inj hfound).symm⟩
      | cons name rest => cases hfound
  | @dir entries hnodup hnames hnodes ih =>
    intro p q
    rw [walkFrom_dir, List.mem_cons, Prod.mk.injEq]
    constructor
    · rintro (⟨rfl, rfl⟩ | hentry)
      · exact ⟨[], rfl, rfl⟩
      · obtain ⟨e, he, hwalk⟩ := List.mem_flatMap.mp hentry
        obtain ⟨names, hfound, rfl⟩ := (ih e he).mp hwalk
        refine ⟨e.1 :: names, ?_, rfl⟩
        rw [Node.at?_dir_cons, lookup_of_mem hnodup he]
        exact hfound
    · rintro ⟨names, hfound, rfl⟩
      cases names with
      | nil => exact .inl ⟨rfl, (Option.some.inj hfound).symm⟩
      | cons name rest =>
        rw [Node.at?_dir_cons, Option.bind_eq_some_iff] at hfound
        obtain ⟨node, hlookup, hfound⟩ := hfound
        have he := mem_of_lookup_eq_some hlookup
        exact .inr (List.mem_flatMap.mpr ⟨(name, node), he, (ih _ he).mpr ⟨rest, hfound, rfl⟩⟩)

/-- What a walk meets has the steps of the path walked from, and then names. -/
theorem components_of_mem_walkFrom (h : node.WellFormed) (hq : (q, found) ∈ node.walkFrom p) :
    ∃ names, node.at? names = some found ∧ (∀ name ∈ names, IsName name) ∧
      q = p.joinAll names ∧ q.components = p.components ++ names.map Path.Component.normal := by
  obtain ⟨names, hfound, rfl⟩ := (mem_walkFrom_iff h).mp hq
  have hnames := (h.at? hfound).2
  exact ⟨names, hfound, hnames, rfl, Path.components_joinAll p hnames⟩

/-- **A walk meets every place once.** -/
theorem distinctSteps_walkFrom (h : node.WellFormed) : ∀ p : Path,
    Path.DistinctSteps ((node.walkFrom p).map Prod.fst) := by
  induction h with
  | file content => exact fun p => List.nodup_singleton _
  | @dir entries hnodup hnames hnodes ih =>
    intro p
    have hbelow : ∀ e ∈ entries, ∀ steps ∈ ((e.2.walkFrom (p.join e.1)).map Prod.fst).map
        Path.components, ∃ rest, steps = p.components ++ .normal e.1 :: rest := by
      intro e he steps hsteps
      rw [List.map_map, List.mem_map] at hsteps
      obtain ⟨⟨q, found⟩, hq, rfl⟩ := hsteps
      obtain ⟨names, -, -, -, hcomponents⟩ := components_of_mem_walkFrom (hnodes e he) hq
      refine ⟨names.map Path.Component.normal, ?_⟩
      rw [Function.comp_apply, hcomponents, Path.components_join (hnames e he)]
      simp
    rw [Path.DistinctSteps, walkFrom_dir, List.map_cons, List.map_cons, List.map_flatMap,
      List.map_flatMap, List.nodup_cons, List.nodup_flatMap]
    refine ⟨fun hself => ?self, fun e he => ih e he (p.join e.1), ?apart⟩
    case self =>
      obtain ⟨e, he, hsteps⟩ := List.mem_flatMap.mp hself
      obtain ⟨rest, heq⟩ := hbelow e he _ hsteps
      simp at heq
    case apart =>
      refine (List.pairwise_map.mp hnodup).imp_of_mem fun {e e'} he he' hne steps hs hs' => ?_
      obtain ⟨rest, rfl⟩ := hbelow e he _ hs
      obtain ⟨rest', heq⟩ := hbelow e' he' _ hs'
      simp [hne] at heq

/-! ## Walks of trees -/

variable {tree : FileTree} {dir : Path} {extension : String}

theorem walk_of_find (hfind : tree.find dir = .ok node) : tree.walk dir = node.walkFrom dir := by
  rw [walk, hfind]

/-- A walk of a tree meets what names lead to from the place walked from. -/
theorem mem_walk_iff (htree : tree.WellFormed) : (q, found) ∈ tree.walk dir ↔
    ∃ start names, tree.find dir = .ok start ∧ start.at? names = some found ∧
      q = dir.joinAll names := by
  constructor
  · intro hwalk
    rw [walk] at hwalk
    split at hwalk
    · rename_i start hfind
      obtain ⟨names, hfound, hq⟩ := (mem_walkFrom_iff (htree.find hfind)).mp hwalk
      exact ⟨start, names, hfind, hfound, hq⟩
    · cases hwalk
  · rintro ⟨start, names, hfind, hfound, hq⟩
    rw [walk_of_find hfind]
    exact (mem_walkFrom_iff (htree.find hfind)).mpr ⟨names, hfound, hq⟩

theorem distinctSteps_walk (htree : tree.WellFormed) (dir : Path) :
    Path.DistinctSteps ((tree.walk dir).map Prod.fst) := by
  rw [walk]
  split
  · rename_i node hfind
    exact distinctSteps_walkFrom (htree.find hfind) dir
  · exact List.nodup_nil

/-- The walk meets a file with the extension. -/
def isFileWith (extension : String) (e : Path × Node) : Bool :=
  e.2.isFile && e.1.extension? == some extension

theorem isFileWith_eq_true_iff : isFileWith extension (p, node) = true ↔
    (∃ content, node = .file content) ∧ p.extension? = some extension := by
  cases node <;> simp [isFileWith, Node.isFile]

theorem filesWithExtension_eq (tree : FileTree) (dir : Path) (extension : String) :
    tree.filesWithExtension dir extension =
      Path.sort (((tree.walk dir).filter (isFileWith extension)).map Prod.fst) := by
  rw [filesWithExtension]
  congr 1
  induction tree.walk dir with
  | nil => rfl
  | cons e rest ih =>
    rw [List.filterMap_cons, List.filter_cons, ih]
    by_cases hkept : isFileWith extension e = true
    · rw [if_pos hkept]
      simp only [isFileWith] at hkept
      simp [hkept]
    · rw [if_neg hkept]
      simp only [isFileWith] at hkept
      simp [hkept]

/-- **The files that a walk selects** are those that it meets and that have the extension. -/
theorem mem_filesWithExtension_iff : p ∈ tree.filesWithExtension dir extension ↔
    (∃ content, (p, .file content) ∈ tree.walk dir) ∧ p.extension? = some extension := by
  rw [filesWithExtension_eq, Path.mem_sort, List.mem_map]
  constructor
  · rintro ⟨⟨q, node⟩, hmem, rfl⟩
    obtain ⟨hwalk, hkept⟩ := List.mem_filter.mp hmem
    obtain ⟨⟨content, rfl⟩, hextension⟩ := isFileWith_eq_true_iff.mp hkept
    exact ⟨⟨content, hwalk⟩, hextension⟩
  · rintro ⟨⟨content, hwalk⟩, hextension⟩
    exact ⟨(p, .file content), List.mem_filter.mpr
      ⟨hwalk, isFileWith_eq_true_iff.mpr ⟨⟨content, rfl⟩, hextension⟩⟩, rfl⟩

/-- The files that a walk selects come in strictly increasing order. -/
theorem pairwise_lt_filesWithExtension (htree : tree.WellFormed) (dir : Path)
    (extension : String) : (tree.filesWithExtension dir extension).Pairwise Path.Lt := by
  rw [filesWithExtension_eq]
  exact Path.pairwise_lt_sort
    ((distinctSteps_walk htree dir).sublist (List.filter_sublist.map Prod.fst))

/-! ## Locations on a walk -/

/-- Names extend the location of a path, as far as they lead. -/
theorem locate_joinAll : ∀ {names base : List String} {p : Path},
    (∀ name ∈ names, IsName name) → tree.locate p = .ok base →
      (tree.top.at? (base ++ names)).isSome → tree.locate (p.joinAll names) = .ok (base ++ names)
  | [], base, p, _, hlocate, _ => by simpa using hlocate
  | name :: rest, base, p, hnames, hlocate, hfound => by
      obtain ⟨hname, hrest⟩ := List.forall_mem_cons.mp hnames
      have hassoc : base ++ name :: rest = base ++ [name] ++ rest := by simp
      rw [hassoc] at hfound ⊢
      have hentry : (tree.top.at? (base ++ [name])).isSome := by
        rw [Node.at?_append, Option.isSome_bind] at hfound
        exact Option.isSome_of_any hfound
      rw [Path.joinAll_cons]
      exact locate_joinAll hrest (locate_join_of_isSome hname hlocate hentry) hfound

/-- **What a walk meets lies below the place walked from**, and the names that lead there from it
make up its path. -/
theorem locate_of_mem_walk (htree : tree.WellFormed) (hwalk : (q, found) ∈ tree.walk dir) :
    ∃ base names, tree.locate dir = .ok base ∧ tree.locate q = .ok (base ++ names) ∧
      tree.top.at? (base ++ names) = some found ∧ q = dir.joinAll names := by
  rw [walk] at hwalk
  split at hwalk
  · rename_i node hfind
    obtain ⟨names, hfound, hnames, rfl, -⟩ := components_of_mem_walkFrom (htree.find hfind) hwalk
    obtain ⟨base, hbase, hat⟩ := exists_locate_of_find hfind
    have hfound' : tree.top.at? (base ++ names) = some found := by
      rw [Node.at?_append, hat]
      exact hfound
    exact ⟨base, names, hbase, locate_joinAll hnames hbase (by rw [hfound']; rfl), hfound', rfl⟩
  · cases hwalk

/-- What a walk meets is found under its path. -/
theorem find_of_mem_walk (htree : tree.WellFormed) (hwalk : (q, found) ∈ tree.walk dir) :
    tree.find q = .ok found := by
  obtain ⟨base, names, -, hq, hfound, -⟩ := locate_of_mem_walk htree hwalk
  exact find_of_locate hq hfound

/-- A walk meets every place below the one walked from. -/
theorem mem_walk_of_at? {base names : List String} (htree : tree.WellFormed)
    (hbase : tree.locate dir = .ok base) (hfound : tree.top.at? (base ++ names) = some found) :
    (dir.joinAll names, found) ∈ tree.walk dir := by
  rw [Node.at?_append, Option.bind_eq_some_iff] at hfound
  obtain ⟨node, hnode, hfound⟩ := hfound
  have hfind := find_of_locate hbase hnode
  rw [walk_of_find hfind]
  exact (mem_walkFrom_iff (htree.find hfind)).mpr ⟨names, hfound, rfl⟩

/-- No two paths of a walk lead to one place. -/
theorem eq_of_mem_walk {other : Node} {r : Path} {names : List String} (htree : tree.WellFormed)
    (hq : (q, found) ∈ tree.walk dir) (hr : (r, other) ∈ tree.walk dir)
    (hqnames : tree.locate q = .ok names) (hrnames : tree.locate r = .ok names) : q = r := by
  obtain ⟨base, qnames, hbase, hqlocate, -, rfl⟩ := locate_of_mem_walk htree hq
  obtain ⟨base', rnames, hbase', hrlocate, -, rfl⟩ := locate_of_mem_walk htree hr
  obtain rfl : base = base' := Except.ok.inj (hbase.symm.trans hbase')
  have hsame := (Except.ok.inj (hqlocate.symm.trans hqnames)).trans
    (Except.ok.inj (hrnames.symm.trans hrlocate))
  rw [List.append_cancel_left hsame]

end FileTree

end SkillLint
