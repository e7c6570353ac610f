import Mathlib.Algebra.Ring.Nat
import SkillLint.Counts
import SkillLint.Proofs.Path.Spelling
import SkillLint.Proofs.Run.Counterparts

/-!
# Counts and the skills of a run

The counts of a tree are taken in a traversal of their own.  Skills are counted among all entries
of the directory of skills, those that are hidden included.  Reference documents are counted in
every directory named like that of references, at whatever depth (`references_scan`), so **the
counts agree with the skills that a run finds, except for the reference documents that lie
elsewhere** (`scan_eq_discovered`): in directories of references that are not those of a skill.
-/

namespace SkillLint

namespace TreeCounts

variable {tree : FileTree} {dir q : Path} {name : String} {node : FileTree.Node}
  {entries : List (String × FileTree.Node)}

/-! ## Sums -/

/-- Members without contribution do not count for a sum. -/
theorem sum_map_filter {α : Type} (f : α → Nat) (kept : α → Bool) : ∀ {l : List α},
    (∀ a ∈ l, kept a = false → f a = 0) → ((l.filter kept).map f).sum = (l.map f).sum
  | [], _ => rfl
  | a :: rest, hzero => by
      obtain ⟨ha, hrest⟩ := List.forall_mem_cons.mp hzero
      by_cases hkept : kept a = true
      · rw [List.filter_cons_of_pos hkept, List.map_cons, List.map_cons, List.sum_cons,
          List.sum_cons, sum_map_filter f kept hrest]
      · rw [List.filter_cons_of_neg hkept, List.map_cons, List.sum_cons,
          ha (Bool.not_eq_true _ ▸ hkept), Nat.zero_add, sum_map_filter f kept hrest]

/-! ## Documents of a directory -/

/-- The number of markdown entries of a directory. -/
def documents (tree : FileTree) (dir : Path) : Nat := (Rule.markdownEntries tree dir).length

/-- The name is that of a markdown document. -/
def isMarkdownName (name : String) : Bool := Path.extensionOf? name == some "md"

theorem documents_eq_countP (htree : tree.WellFormed) (hfind : tree.find q = .ok (.dir entries)) :
    documents tree q = entries.countP fun e => isMarkdownName e.1 := by
  rw [documents, Rule.markdownEntries, FileTree.list_of_find hfind]
  rw [(Path.sort_perm _).length_eq, ← List.countP_eq_length_filter, List.countP_map,
    List.countP_map]
  refine List.countP_congr fun e he => ?_
  have hname := (htree.find hfind).isName he
  simp [Path.extension?, Path.fileName?_join hname, isMarkdownName]

/-- Only a directory has documents. -/
theorem find_of_documents_ne_zero (htree : tree.WellFormed) (h : documents tree q ≠ 0) :
    ∃ entries, tree.find q = .ok (.dir entries) := by
  obtain ⟨file, hfile⟩ := List.exists_mem_of_length_pos (Nat.pos_of_ne_zero h)
  obtain ⟨entries, -, hfind, -⟩ := Rule.exists_of_mem_markdownEntries htree hfile
  exact ⟨entries, hfind⟩

/-- An entry is a reference document if it is named like one and its directory is one of
references. -/
theorem isReference_join (hname : IsName name) (p : Path) :
    isReference (p.join name) =
      (isMarkdownName name && p.fileName? == some Schema.referencesDir) := by
  rw [isReference, Path.extension?, Path.fileName?_join hname, Path.parent?_join hname]
  rfl

/-! ## Documents of a tree -/

/-- A walk meets a directory of references. -/
def isReferenceDir (e : Path × FileTree.Node) : Bool :=
  e.2.isDir && e.1.fileName? == some Schema.referencesDir

/-- The number of reference documents that lie directly in what a walk meets. -/
def held : Path × FileTree.Node → Nat
  | (_, .file _) => 0
  | (p, .dir entries) =>
    if p.fileName? = some Schema.referencesDir then entries.countP fun e => isMarkdownName e.1
    else 0

/-- **A walk meets the reference documents of the directories that it meets**, and maybe it starts
at one. -/
theorem countP_walkFrom (h : node.WellFormed) : ∀ p : Path,
    (node.walkFrom p).countP (fun e => isReference e.1) =
      (if isReference p then 1 else 0) + ((node.walkFrom p).map held).sum := by
  induction h with
  | file content =>
    intro p
    simp [FileTree.Node.walkFrom, held, List.countP_cons]
  | @dir entries hnodup hnames hnodes ih =>
    intro p
    -- The walk of an entry counts the entry itself first.  These first ones make up what the
    -- directory holds, and the rest is the induction hypothesis.
    have hbelow : ∀ {listed : List (String × FileTree.Node)}, listed ⊆ entries →
        (listed.flatMap fun e => e.2.walkFrom (p.join e.1)).countP (fun e => isReference e.1) =
          (listed.countP fun e => isReference (p.join e.1)) +
            ((listed.flatMap fun e => e.2.walkFrom (p.join e.1)).map held).sum := by
      intro listed
      induction listed with
      | nil => exact fun _ => rfl
      | cons e rest ihrest =>
        intro hsub
        obtain ⟨he, hrest⟩ := List.cons_subset.mp hsub
        rw [List.flatMap_cons, List.countP_append, List.map_append, List.sum_append,
          List.countP_cons, ihrest hrest, ih e he (p.join e.1)]
        omega
    have hheld : (entries.countP fun e => isReference (p.join e.1)) = held (p, .dir entries) := by
      rw [held]
      split
      · rename_i hreferences
        refine List.countP_congr fun e he => ?_
        rw [isReference_join (hnames e he), hreferences]
        simp
      · rename_i hother
        refine List.countP_eq_zero.mpr fun e he => ?_
        rw [isReference_join (hnames e he)]
        simp [hother]
    rw [FileTree.walkFrom_dir, List.countP_cons, List.map_cons, List.sum_cons,
      hbelow (List.Subset.refl _), hheld]
    dsimp only
    omega

/-- The directories of references at or below a directory. -/
def referenceDirs (tree : FileTree) (dir : Path) : List Path :=
  ((tree.walk dir).filter isReferenceDir).map Prod.fst

theorem mem_referenceDirs_iff : q ∈ referenceDirs tree dir ↔
    q.fileName? = some Schema.referencesDir ∧
      ∃ entries, (q, .dir entries) ∈ tree.walk dir := by
  rw [referenceDirs, List.mem_map]
  constructor
  · rintro ⟨⟨q, node⟩, hmem, rfl⟩
    obtain ⟨hwalk, hkept⟩ := List.mem_filter.mp hmem
    obtain ⟨hdir, hname⟩ := Bool.and_eq_true_iff.mp hkept
    cases node with
    | file content => cases hdir
    | dir entries => exact ⟨beq_iff_eq.mp hname, entries, hwalk⟩
  · rintro ⟨hname, entries, hwalk⟩
    exact ⟨(q, .dir entries), List.mem_filter.mpr ⟨hwalk, by
      simp [isReferenceDir, FileTree.Node.isDir, hname]⟩, rfl⟩

theorem nodup_referenceDirs (htree : tree.WellFormed) (dir : Path) :
    (referenceDirs tree dir).Nodup :=
  ((FileTree.distinctSteps_walk htree dir).sublist (List.filter_sublist.map Prod.fst)).nodup

/-- **Reference documents are counted directory by directory**, and the path itself if it is named
like one. -/
theorem references_scan (htree : tree.WellFormed) (hfind : tree.find dir = .ok node) :
    (scan tree dir).references =
      (if isReference dir then 1 else 0) + ((referenceDirs tree dir).map (documents tree)).sum := by
  have hheld : ((referenceDirs tree dir).map (documents tree)).sum =
      ((tree.walk dir).map held).sum := by
    have hzero : ∀ e ∈ tree.walk dir, isReferenceDir e = false → held e = 0 := by
      rintro ⟨q, node⟩ - hother
      cases node with
      | file content => rfl
      | dir entries =>
        refine if_neg fun hname => ?_
        simp [isReferenceDir, FileTree.Node.isDir, hname] at hother
    rw [← sum_map_filter held isReferenceDir hzero, referenceDirs, List.map_map]
    refine congrArg List.sum (List.map_congr_left fun e he => ?_)
    obtain ⟨hwalk, hkept⟩ := List.mem_filter.mp he
    obtain ⟨q, node⟩ := e
    obtain ⟨hdir, hname⟩ := Bool.and_eq_true_iff.mp hkept
    cases node with
    | file content => cases hdir
    | dir entries =>
      rw [held, if_pos (beq_iff_eq.mp hname)]
      exact documents_eq_countP htree (FileTree.find_of_mem_walk htree hwalk)
  rw [scan, hheld, FileTree.walk_of_find hfind]
  exact countP_walkFrom (htree.find hfind) dir

/-! ## Discovered skills -/

/-- One of the directories with a skill document is hidden. -/
def HasHiddenSkill (tree : FileTree) (dir : Path) : Prop :=
  ∃ skill ∈ skillDirs tree dir, skill.fileName?.any isHiddenName = true

instance : Decidable (HasHiddenSkill tree dir) :=
  inferInstanceAs (Decidable (∃ skill ∈ skillDirs tree dir, _))

/-- The directories of references of skills. -/
def skillReferences (skills : List Path) : List Path := skills.map (·.join Schema.referencesDir)

/-- The directories of references that are not those of a skill. -/
def otherReferences (tree : FileTree) (dir : Path) (skills : List Path) : List Path :=
  (referenceDirs tree dir).filter fun q => !(skillReferences skills).contains q

variable {skills : List Path}

/-- **Skills are counted as they are discovered**, unless a hidden directory looks like one. -/
theorem skills_scan (htree : tree.WellFormed) (hskills : discoverSkills tree dir = .ok skills)
    (hhidden : ¬ HasHiddenSkill tree dir) :
    (scan tree dir).skills =
      skills.countP fun skill => tree.pathExists (skill.join Schema.skillFile) := by
  obtain ⟨entries, hfind, rfl⟩ := exists_of_discoverSkills htree hskills
  have hcounted : skillDirs tree dir = ((entries.map Prod.fst).map dir.join).filter fun p =>
      tree.isDir p && tree.pathExists (p.join Schema.skillFile) := by
    rw [skillDirs, FileTree.list_of_find hfind]
  rw [scan, hcounted, ← List.countP_eq_length_filter, List.countP_map, List.countP_map,
    (Path.sort_perm _).countP_eq, List.countP_map, skillNames, List.countP_map, List.countP_filter]
  refine List.countP_congr fun e he => ?_
  have hname := (htree.find hfind).isName he
  have hdir := FileTree.isDir_join htree hfind he
  simp only [Function.comp_apply, hdir, Bool.and_eq_true, Bool.not_eq_true']
  constructor
  · rintro ⟨hchild, hdocument⟩
    refine ⟨hdocument, hchild, Bool.eq_false_iff.mpr fun hdot => hhidden ⟨dir.join e.1, ?_, ?_⟩⟩
    · rw [hcounted, List.mem_filter, hdir, hchild, hdocument]
      exact ⟨List.mem_map_of_mem (List.mem_map_of_mem he), rfl⟩
    · rw [Path.fileName?_join hname]
      exact hdot
  · rintro ⟨hdocument, hchild, -⟩
    exact ⟨hchild, hdocument⟩

theorem nodup_skillReferences (htree : tree.WellFormed)
    (hskills : discoverSkills tree dir = .ok skills) : (skillReferences skills).Nodup := by
  obtain ⟨entries, hfind, rfl⟩ := exists_of_discoverSkills htree hskills
  have hdistinct : Path.DistinctSteps (Path.sort ((skillNames entries).map dir.join)) :=
    (distinctSteps_skillNames (htree.find hfind) dir).perm (Path.sort_perm _).symm
  refine hdistinct.nodup.map_on fun skill hskill other hother heq => ?_
  have hsteps := congrArg Path.components heq
  rw [Path.components_join (by decide), Path.components_join (by decide)] at hsteps
  exact hdistinct.eq_of_mem hskill hother (List.append_cancel_right hsteps)

/-- The walk meets the directory of references of a skill, if there are documents in it. -/
theorem mem_referenceDirs_of_documents (htree : tree.WellFormed)
    (hskills : discoverSkills tree dir = .ok skills) (hq : q ∈ skillReferences skills)
    (hdocuments : documents tree q ≠ 0) : q ∈ referenceDirs tree dir := by
  obtain ⟨entries, hfind, rfl⟩ := exists_of_discoverSkills htree hskills
  obtain ⟨skill, hskill, rfl⟩ := List.mem_map.mp hq
  obtain ⟨name, hname, rfl⟩ := List.mem_map.mp (Path.mem_sort.mp hskill)
  obtain ⟨children, hentry, -⟩ := mem_skillNames.mp hname
  have hisName := isName_of_mem_skillNames (htree.find hfind) hname
  obtain ⟨inside, hinside⟩ := find_of_documents_ne_zero htree hdocuments
  obtain ⟨base, hbase, -⟩ := FileTree.exists_locate_of_find hfind
  obtain ⟨names, hnames, -⟩ :=
    FileTree.exists_locate_of_find (FileTree.find_join htree hfind hentry)
  obtain rfl := FileTree.locate_join_eq hisName hbase hnames
  obtain ⟨names', hnames', hat⟩ := FileTree.exists_locate_of_find hinside
  obtain rfl := FileTree.locate_join_eq (by decide) hnames hnames'
  rw [List.append_assoc] at hat
  exact mem_referenceDirs_iff.mpr ⟨Path.fileName?_join (by decide) _, inside,
    FileTree.mem_walk_of_at? htree hbase hat⟩

/-- **The reference documents of skills**, and those elsewhere. -/
theorem sum_referenceDirs (htree : tree.WellFormed)
    (hskills : discoverSkills tree dir = .ok skills) :
    ((referenceDirs tree dir).map (documents tree)).sum =
      ((skillReferences skills).map (documents tree)).sum +
        ((otherReferences tree dir skills).map (documents tree)).sum := by
  have hsplit := ((List.filter_append_perm (fun q => (skillReferences skills).contains q)
    (referenceDirs tree dir)).map (documents tree)).sum_nat
  rw [← hsplit, List.map_append, List.sum_append, otherReferences]
  congr 1
  have hzero : ∀ q ∈ skillReferences skills, (referenceDirs tree dir).contains q = false →
      documents tree q = 0 := by
    intro q hq hunmet
    by_contra hdocuments
    have hmet := mem_referenceDirs_of_documents htree hskills hq hdocuments
    simp [hmet] at hunmet
  rw [← sum_map_filter (documents tree) _ hzero]
  refine (List.Perm.map _ ((List.perm_ext_iff_of_nodup ((nodup_referenceDirs htree dir).filter _)
    ((nodup_skillReferences htree hskills).filter _)).mpr fun q => ?_)).sum_nat
  simp only [List.mem_filter, List.contains_iff_mem]
  exact and_comm

/-- **The counts agree with the skills that are discovered**, as far as they can.  The skills that
are counted are those with a skill document, unless a hidden directory looks like one.  The
reference documents that are counted are those of the skills, and those of the other directories
of references at or below the directory; and the directory itself, if its path is named like a
reference document. -/
theorem scan_eq_discovered (htree : tree.WellFormed) (hdir : tree.isDir dir = true) :
    ∃ skills, discoverSkills tree dir = .ok skills ∧
      (¬ HasHiddenSkill tree dir → (scan tree dir).skills =
        skills.countP fun skill => tree.pathExists (skill.join Schema.skillFile)) ∧
      (scan tree dir).references = (if isReference dir then 1 else 0) +
        (((skillReferences skills).map (documents tree)).sum +
          ((otherReferences tree dir skills).map (documents tree)).sum) := by
  obtain ⟨entries, hfind⟩ := FileTree.isDir_eq_true_iff.mp hdir
  have hskills := discoverSkills_eq htree hfind
  refine ⟨_, hskills, skills_scan htree hskills, ?_⟩
  rw [references_scan htree hfind, sum_referenceDirs htree hskills]

/-- A skill with a reference document in a directory further down. -/
def nestedTree : FileTree :=
  ((FileTree.empty []).writeFile ⟨"skills/sorting/SKILL.md"⟩ "A text.".toUTF8).writeFile
    ⟨"skills/sorting/guides/references/notes.md"⟩ "Notes.".toUTF8

theorem wellFormed_nestedTree : nestedTree.WellFormed :=
  ((FileTree.wellFormed_empty (by decide)).writeFile (by decide) _).writeFile
    (by decide) _

theorem scan_eq_discovered_nestedTree : nestedTree.WellFormed ∧
    nestedTree.isDir ⟨"skills"⟩ = true ∧ ¬ HasHiddenSkill nestedTree ⟨"skills"⟩ ∧
      ∃ skills, discoverSkills nestedTree ⟨"skills"⟩ = .ok skills ∧
        (scan nestedTree ⟨"skills"⟩).skills =
          skills.countP (fun skill => nestedTree.pathExists (skill.join Schema.skillFile)) ∧
        (scan nestedTree ⟨"skills"⟩).references =
          ((skillReferences skills).map (documents nestedTree)).sum +
            ((otherReferences nestedTree ⟨"skills"⟩ skills).map (documents nestedTree)).sum := by
  have hdir : nestedTree.isDir ⟨"skills"⟩ = true := by decide +kernel
  have hhidden : ¬ HasHiddenSkill nestedTree ⟨"skills"⟩ := by decide +kernel
  obtain ⟨skills, hdiscovered, hskills, hreferences⟩ :=
    scan_eq_discovered wellFormed_nestedTree hdir
  exact ⟨wellFormed_nestedTree, hdir, hhidden, skills, hdiscovered, hskills hhidden,
    hreferences.trans (Nat.zero_add _)⟩

/-- Not all reference documents that are counted are those of skills. -/
theorem not_scan_eq_discovered : ¬ ∀ (tree : FileTree) (dir : Path) (skills : List Path),
    tree.WellFormed → discoverSkills tree dir = .ok skills →
      (scan tree dir).skills =
          skills.countP (fun skill => tree.pathExists (skill.join Schema.skillFile)) ∧
        (scan tree dir).references = ((skillReferences skills).map (documents tree)).sum := by
  intro h
  have hdiscovered : discoverSkills nestedTree ⟨"skills"⟩ = .ok [⟨"skills/sorting"⟩] := by
    decide +kernel
  have hcounted : (scan nestedTree ⟨"skills"⟩).references = 1 := by decide +kernel
  obtain ⟨-, hreferences⟩ := h _ _ _ wellFormed_nestedTree hdiscovered
  rw [hcounted] at hreferences
  have hsum : ((skillReferences [⟨"skills/sorting"⟩]).map (documents nestedTree)).sum = 0 := by
    decide +kernel
  omega

end TreeCounts

end SkillLint
