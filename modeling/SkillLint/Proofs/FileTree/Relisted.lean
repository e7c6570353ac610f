import SkillLint.Proofs.FileTree.Alike

/-!
# Orders of listings

The order in which a directory lists its entries is up to the file system, and may be another one
the next time.  A tree is **relisted** (`Relisted`) if its directories, at every level, list the
same entries in orders of their own.  A relisted tree is alike without exception, files having the
same contents, so **no path leads to anything else** (`Relisted.alike`).
-/

namespace SkillLint.FileTree

/-- The nodes are the same, except for the orders in which directories list their entries. -/
inductive Node.Relisted : Node → Node → Prop where
  | file (content : ByteArray) : Relisted (.file content) (.file content)
  | dir {entries entries' : List (String × Node)}
      (hnames : (entries.map Prod.fst).Perm (entries'.map Prod.fst))
      (hnodes : ∀ e ∈ entries, ∀ e' ∈ entries', e.1 = e'.1 → Relisted e.2 e'.2) :
      Relisted (.dir entries) (.dir entries')

/-- The trees are the same, except for the orders in which directories list their entries. -/
structure Relisted (tree tree' : FileTree) : Prop where
  top : tree.top.Relisted tree'.top
  workingDir : tree.workingDir = tree'.workingDir

/-- Relisting a directory keeps it well-formed. -/
theorem Node.Relisted.wellFormed {node node' : Node} (h : node.Relisted node') :
    node.WellFormed → node'.WellFormed := by
  induction h with
  | file content => exact id
  | @dir entries entries' hperm hnodes ih =>
    intro hdir
    have hcounterpart : ∀ e' ∈ entries', ∃ e ∈ entries, e.1 = e'.1 := fun e' he' =>
      List.mem_map.mp (hperm.mem_iff.mpr (List.mem_map_of_mem he'))
    refine .dir (hperm.nodup_iff.mp hdir.nodup) (fun e' he' => ?name) fun e' he' => ?node
    case name =>
      obtain ⟨e, he, hname⟩ := hcounterpart e' he'
      exact hname ▸ hdir.isName he
    case node =>
      obtain ⟨e, he, hname⟩ := hcounterpart e' he'
      exact ih e he e' he' hname (hdir.node_of_mem he)

/-- The same names lead to the same in a relisted node. -/
theorem Node.Relisted.counterparts {node node' : Node} (h : node.Relisted node') :
    ∀ names, Counterparts False (node.at? names) (node'.at? names) := by
  induction h with
  | file content => exact fun _ => .refl _ _
  | @dir entries entries' hperm hnodes ih =>
    intro names
    cases names with
    | nil => exact .dirs entries entries'
    | cons name rest =>
      have hsome : (entries.lookup name).isSome = (entries'.lookup name).isSome := by
        rw [Bool.eq_iff_iff, isSome_lookup_iff, isSome_lookup_iff, hperm.mem_iff]
      rw [Node.at?_dir_cons, Node.at?_dir_cons]
      -- Both listings have an entry under the name, or neither has.
      cases hentry : entries.lookup name with
      | none =>
        cases hentry' : entries'.lookup name with
        | none => exact .nothing
        | some child' =>
          rw [hentry, hentry'] at hsome
          cases hsome
      | some child =>
        cases hentry' : entries'.lookup name with
        | none =>
          rw [hentry, hentry'] at hsome
          cases hsome
        | some child' =>
          exact ih _ (mem_of_lookup_eq_some hentry) _ (mem_of_lookup_eq_some hentry') rfl rest

variable {tree tree' : FileTree}

theorem Relisted.wellFormed (h : tree.Relisted tree') (htree : tree.WellFormed) :
    tree'.WellFormed :=
  h.top.wellFormed htree

/-- **Relisted trees are alike**, and all files have the same contents. -/
theorem Relisted.alike (h : tree.Relisted tree') : Alike (fun _ => False) tree tree' :=
  ⟨h.workingDir, h.top.counterparts⟩

/-- All files read the same in trees that are alike without exception. -/
theorem Alike.readText_eq_of_false (h : Alike (fun _ => False) tree tree') :
    tree.readText = tree'.readText :=
  funext fun _ => h.readText_eq fun _ _ => id

end SkillLint.FileTree
