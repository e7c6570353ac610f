import SkillLint.Proofs.FileTree.Beside

/-!
# Trees with one more file

A file is **added** to a tree (`AddsFile`) where nothing was before.  The directories above it may
have been made for it, but no file was in the way, and names that do not lead towards it lead to the
same as before.  So paths to directories lead there still, and a walk meets the files that it met
and the new one (`mem_walk_iff`).  **The files that a walk selects are the same, or the new one is
inserted** among them (`filesWithExtension_eq`, `exists_filesWithExtension`).

Writing a file where none was adds it (`addsFile_writeFile`).
-/

namespace SkillLint.FileTree

variable {tree tree' : FileTree} {p q dir : Path} {location base names : List String}
  {content : ByteArray} {extension : String}

/-- **One more file**: the second tree has a file with the content at the location, where the first
one has nothing and no file in the way; all else is the same. -/
structure AddsFile (location : List String) (content : ByteArray) (tree tree' : FileTree) :
    Prop where
  workingDir : tree.workingDir = tree'.workingDir
  absent : tree.top.at? location = none
  /-- What is on the way to the file are directories. -/
  unblocked : ∀ names, names <+: location → (tree.top.at? names).all Node.isDir = true
  present : tree'.top.at? location = some (.file content)
  beside : ∀ names, ¬ names <+: location →
    Counterparts False (tree.top.at? names) (tree'.top.at? names)

/-- Names lead to a directory if more names lead on. -/
theorem exists_dir_of_prefix {node found : Node} (hfound : node.at? names = some found)
    {before : List String} (hway : before <+: names) (hne : before ≠ names) :
    ∃ entries, node.at? before = some (.dir entries) := by
  obtain ⟨rest, rfl⟩ := hway
  rw [Node.at?_append, Option.bind_eq_some_iff] at hfound
  obtain ⟨here, hhere, hrest⟩ := hfound
  cases here with
  | dir entries => exact ⟨entries, hhere⟩
  | file content =>
    cases rest with
    | nil => exact absurd (List.append_nil before).symm hne
    | cons name rest => cases hrest

namespace AddsFile

/-- All directories stay. -/
theorem dirsWithin (h : AddsFile location content tree tree') :
    DirsWithin tree.top tree'.top := by
  intro names entries hdir
  by_cases hway : names <+: location
  · refine exists_dir_of_prefix h.present hway ?_
    rintro rfl
    rw [h.absent] at hdir
    cases hdir
  · have hnode := h.beside names hway
    rw [hdir] at hnode
    generalize tree'.top.at? names = node at hnode ⊢
    cases hnode with
    | dirs entries entries' => exact ⟨entries', rfl⟩

/-- A path to a directory leads there still. -/
theorem locate_eq (h : AddsFile location content tree tree') (hdir : tree.isDir dir = true)
    (hbase : tree.locate dir = .ok base) : tree'.locate dir = .ok base := by
  obtain ⟨entries, hfind⟩ := isDir_eq_true_iff.mp hdir
  obtain ⟨names, hnames, hat⟩ := exists_locate_of_find hfind
  obtain rfl : base = names := Except.ok.inj (hbase.symm.trans hnames)
  exact locate_of_dirs h.workingDir h.dirsWithin hat hbase

theorem isDir_eq_true (h : AddsFile location content tree tree') (hdir : tree.isDir dir = true) :
    tree'.isDir dir = true := by
  obtain ⟨entries, hfind⟩ := isDir_eq_true_iff.mp hdir
  obtain ⟨names, hnames, hat⟩ := exists_locate_of_find hfind
  obtain ⟨entries', hat'⟩ := h.dirsWithin names entries hat
  exact isDir_eq_true_iff.mpr ⟨entries', find_of_locate (h.locate_eq hdir hnames) hat'⟩

/-- **The files are those that were there, and the new one.** -/
theorem at?_eq_file_iff (h : AddsFile location content tree tree') {content' : ByteArray} :
    tree'.top.at? names = some (.file content') ↔
      tree.top.at? names = some (.file content') ∨ names = location ∧ content' = content := by
  by_cases hlocation : names = location
  · subst hlocation
    rw [h.absent, h.present]
    simp [eq_comm]
  · by_cases hway : names <+: location
    · -- on the way to the new file there is a directory now, and there was no file before
      obtain ⟨entries, hdir⟩ := exists_dir_of_prefix h.present hway hlocation
      have hnone : tree.top.at? names ≠ some (.file content') := by
        intro hfile
        have hunblocked := h.unblocked names hway
        rw [hfile] at hunblocked
        cases hunblocked
      simp [hdir, hnone, hlocation]
    · have hnode := h.beside names hway
      simp only [hlocation, false_and, or_false]
      generalize tree.top.at? names = node at hnode ⊢
      generalize tree'.top.at? names = node' at hnode ⊢
      cases hnode with
      | nothing => exact Iff.rfl
      | dirs entries entries' => simp
      | files hsame => rw [hsame not_false]

section Below

variable (h : AddsFile (base ++ names) content tree tree') (htree : tree.WellFormed)
  (htree' : tree'.WellFormed) (hdir : tree.isDir dir = true) (hbase : tree.locate dir = .ok base)
include h htree htree' hdir hbase

/-- **A walk meets the files that it met, and the new one.** -/
theorem mem_walk_iff {content' : ByteArray} : (q, .file content') ∈ tree'.walk dir ↔
    (q, .file content') ∈ tree.walk dir ∨ q = dir.joinAll names ∧ content' = content := by
  have hbase' := h.locate_eq hdir hbase
  constructor
  · intro hwalk
    obtain ⟨_, rest, hother, -, hfound, rfl⟩ := locate_of_mem_walk htree' hwalk
    obtain rfl := Except.ok.inj (hother.symm.trans hbase')
    rcases h.at?_eq_file_iff.mp hfound with hfile | ⟨hsame, rfl⟩
    · exact .inl (mem_walk_of_at? htree hbase hfile)
    · exact .inr ⟨by rw [List.append_cancel_left hsame], rfl⟩
  · rintro (hwalk | ⟨rfl, rfl⟩)
    · obtain ⟨_, rest, hother, -, hfound, rfl⟩ := locate_of_mem_walk htree hwalk
      obtain rfl := Except.ok.inj (hother.symm.trans hbase)
      exact mem_walk_of_at? htree' hbase' (h.at?_eq_file_iff.mpr (.inl hfound))
    · exact mem_walk_of_at? htree' hbase' h.present

omit hdir in
/-- The new file was not met before. -/
theorem notMem_walk {node : Node} : (dir.joinAll names, node) ∉ tree.walk dir := by
  intro hwalk
  obtain ⟨_, rest, hother, -, hfound, hsame⟩ := locate_of_mem_walk htree hwalk
  obtain rfl := Except.ok.inj (hother.symm.trans hbase)
  have hnames : ∀ name ∈ names, IsName name := fun name hname =>
    (htree'.at? h.present).2 name (List.mem_append_right _ hname)
  have hrest : ∀ name ∈ rest, IsName name := fun name hname =>
    (htree.at? hfound).2 name (List.mem_append_right _ hname)
  rw [← Path.eq_of_joinAll_eq hnames hrest hsame, h.absent] at hfound
  cases hfound

/-- The files that were met read the same. -/
theorem readText_eq {content' : ByteArray} (hwalk : (q, .file content') ∈ tree.walk dir) :
    tree'.readText q = tree.readText q := by
  have hwalk' := (h.mem_walk_iff htree htree' hdir hbase).mpr (.inl hwalk)
  rw [readText, readText, find_of_mem_walk htree hwalk, find_of_mem_walk htree' hwalk']

theorem mem_filesWithExtension_iff : q ∈ tree'.filesWithExtension dir extension ↔
    q ∈ tree.filesWithExtension dir extension ∨
      q = dir.joinAll names ∧ (dir.joinAll names).extension? = some extension := by
  simp only [FileTree.mem_filesWithExtension_iff, h.mem_walk_iff htree htree' hdir hbase]
  constructor
  · rintro ⟨⟨_, hold | ⟨rfl, -⟩⟩, hextension⟩
    · exact .inl ⟨⟨_, hold⟩, hextension⟩
    · exact .inr ⟨rfl, hextension⟩
  · rintro (⟨⟨_, hold⟩, hextension⟩ | ⟨rfl, hextension⟩)
    · exact ⟨⟨_, .inl hold⟩, hextension⟩
    · exact ⟨⟨content, .inr ⟨rfl, rfl⟩⟩, hextension⟩

/-- **Files with another extension than the new one are the same.** -/
theorem filesWithExtension_eq (hother : (dir.joinAll names).extension? ≠ some extension) :
    tree'.filesWithExtension dir extension = tree.filesWithExtension dir extension := by
  refine Path.eq_of_mem_iff (pairwise_lt_filesWithExtension htree' _ _)
    (pairwise_lt_filesWithExtension htree _ _) fun q => ?_
  rw [h.mem_filesWithExtension_iff htree htree' hdir hbase]
  simp [hother]

/-- **The new file is inserted** among those with its extension. -/
theorem exists_filesWithExtension (hsame : (dir.joinAll names).extension? = some extension) :
    ∃ before after, tree.filesWithExtension dir extension = before ++ after ∧
      tree'.filesWithExtension dir extension = before ++ dir.joinAll names :: after := by
  refine Path.exists_eq_insert (pairwise_lt_filesWithExtension htree _ _)
    (pairwise_lt_filesWithExtension htree' _ _) ?_ fun q => ?_
  · rw [FileTree.mem_filesWithExtension_iff]
    rintro ⟨⟨_, hwalk⟩, -⟩
    exact h.notMem_walk htree htree' hbase hwalk
  · rw [h.mem_filesWithExtension_iff htree htree' hdir hbase, and_iff_left hsame]

end Below

end AddsFile

/-! ## Writing a new file -/

/-- What is built where nothing was stands at the end of the names, and changes nothing beside
them. -/
theorem counterparts_changeAt_absent {f : Option Node → Node} :
    ∀ (location : List String) (node : Option Node), node.bind (·.at? location) = none →
      (∀ names, names <+: location → (node.bind (·.at? names)).all Node.isDir = true) →
      (Node.changeAt f location node).at? location = some (f none) ∧
        ((f none).isDir = false → ∀ names, ¬ names <+: location → Counterparts False
          (node.bind (·.at? names)) ((Node.changeAt f location node).at? names))
  | [], node, habsent, _ => by
      obtain rfl : node = none := by simpa using habsent
      refine ⟨Node.at?_nil _, fun hfile names haway => ?_⟩
      cases names with
      | nil => exact absurd List.nil_prefix haway
      | cons name rest =>
        rw [Node.changeAt]
        cases hbuilt : f none with
        | dir entries => simp [hbuilt, Node.isDir] at hfile
        | file content => exact .nothing
  | name :: rest, node, habsent, hunblocked => by
      -- a file has no entries, so its entries lead nowhere either
      have hnode : ∀ n names, node.bind (·.at? (n :: names)) =
          (((node.map Node.entries).getD []).lookup n).bind (·.at? names) := by
        intro n names
        cases node with
        | none => rfl
        | some node =>
          cases node with
          | file content => rfl
          | dir entries => exact Node.at?_dir_cons entries n names
      obtain ⟨hpresent, hbeside⟩ := counterparts_changeAt_absent (f := f) rest
        (((node.map Node.entries).getD []).lookup name) (hnode name rest ▸ habsent)
        fun names hway => by
          rw [← hnode]
          exact hunblocked _ (List.cons_prefix_cons.mpr ⟨rfl, hway⟩)
      refine ⟨?_, fun hfile names haway => ?_⟩
      · rw [Node.changeAt, Node.at?_dir_cons, lookup_changeEntry, if_pos rfl, Option.bind_some,
          hpresent]
      · cases names with
        | nil => exact absurd List.nil_prefix haway
        | cons n names =>
          rw [Node.changeAt, Node.at?_dir_cons, lookup_changeEntry, hnode]
          by_cases hn : n = name
          · subst hn
            rw [if_pos rfl]
            exact hbeside hfile names fun hway => haway (List.cons_prefix_cons.mpr ⟨rfl, hway⟩)
          · rw [if_neg hn]
            exact .refl _ _

/-- **Writing a file where none was adds it.** -/
theorem addsFile_writeFile (habsent : tree.top.at? (tree.names p) = none)
    (hunblocked : ∀ names, names <+: tree.names p → (tree.top.at? names).all Node.isDir = true)
    (content : ByteArray) :
    AddsFile (tree.names p) content tree (tree.writeFile p content) := by
  obtain ⟨hpresent, hbeside⟩ := counterparts_changeAt_absent (f := fun _ => .file content)
    (tree.names p) (some tree.top) habsent hunblocked
  exact ⟨rfl, habsent, hunblocked, hpresent, hbeside rfl⟩

end SkillLint.FileTree
