import Mathlib.Data.List.Nodup
import SkillLint.FileTree.Build
import SkillLint.Proofs.FileTree.Names

/-!
# Trees that are built along names

Building changes the entry at the end of a path and makes the directories above it.  As long as
the steps of the path are names, **what is built is well-formed** (`WellFormed.change`): an entry
is changed where it stands, or added under a name that the directory did not have.
-/

namespace SkillLint.FileTree

variable {name : String} {f : Option Node → Node} {entries : List (String × Node)}

/-! ## Entries -/

/-- An entry after a change was there before, or is the changed one. -/
theorem mem_changeEntry {e : String × Node} : ∀ {entries : List (String × Node)},
    e ∈ changeEntry name f entries →
      e ∈ entries ∨ ∃ node, e = (name, f node) ∧ ∀ n ∈ node, (name, n) ∈ entries
  | [], h => .inr ⟨none, List.mem_singleton.mp h, nofun⟩
  | (n, node) :: rest, h => by
      rw [changeEntry] at h
      split at h
      · rename_i hn
        subst hn
        rcases List.mem_cons.mp h with rfl | h
        · refine .inr ⟨some node, rfl, fun _ hnode => ?_⟩
          obtain rfl := Option.mem_some_iff.mp hnode
          exact List.mem_cons_self
        · exact .inl (List.mem_cons_of_mem _ h)
      · rcases List.mem_cons.mp h with rfl | h
        · exact .inl List.mem_cons_self
        · refine (mem_changeEntry h).imp (List.mem_cons_of_mem _) ?_
          rintro ⟨node', rfl, hnode'⟩
          exact ⟨node', rfl, fun _ hn => List.mem_cons_of_mem _ (hnode' _ hn)⟩

theorem lookup_cons_of_ne {other n : String} (hne : other ≠ n) (node : Node)
    (rest : List (String × Node)) : ((n, node) :: rest).lookup other = rest.lookup other := by
  rw [List.lookup_cons, beq_false_of_ne hne]

/-- **A change to an entry is seen under its name only.** -/
theorem lookup_changeEntry (other : String) : ∀ entries : List (String × Node),
    (changeEntry name f entries).lookup other =
      if other = name then some (f (entries.lookup name)) else entries.lookup other
  | [] => by
      by_cases hother : other = name
      · simp [changeEntry, hother]
      · rw [changeEntry, lookup_cons_of_ne hother, if_neg hother]
  | (n, node) :: rest => by
      by_cases hn : n = name
      · subst hn
        by_cases hother : other = n
        · simp [changeEntry, hother]
        · rw [changeEntry, if_pos rfl, lookup_cons_of_ne hother, lookup_cons_of_ne hother,
            if_neg hother]
      · rw [changeEntry, if_neg hn, lookup_cons_of_ne (Ne.symm hn)]
        by_cases hother : other = n
        · subst hother
          rw [List.lookup_cons_self, List.lookup_cons_self, if_neg hn]
        · rw [lookup_cons_of_ne hother, lookup_cons_of_ne hother, lookup_changeEntry other rest]

theorem names_changeEntry : ∀ entries : List (String × Node),
    (changeEntry name f entries).map Prod.fst =
      if name ∈ entries.map Prod.fst then entries.map Prod.fst
      else entries.map Prod.fst ++ [name]
  | [] => by simp [changeEntry]
  | (n, node) :: rest => by
      by_cases hn : n = name
      · simp [changeEntry, hn]
      · rw [changeEntry, if_neg hn, List.map_cons, names_changeEntry rest]
        by_cases hrest : name ∈ rest.map Prod.fst
        · simp [hrest]
        · have hnew : name ∉ ((n, node) :: rest).map Prod.fst := by
            simpa [Ne.symm hn] using hrest
          rw [if_neg hrest, if_neg hnew]
          rfl

/-- Changing an entry keeps a directory well-formed. -/
theorem Node.WellFormed.changeEntry (h : (Node.dir entries).WellFormed) (hname : IsName name)
    (hf : ∀ node, (∀ n ∈ node, n.WellFormed) → (f node).WellFormed) :
    (Node.dir (changeEntry name f entries)).WellFormed := by
  refine .dir ?nodup (fun e he => ?names) (fun e he => ?nodes)
  case nodup =>
    rw [names_changeEntry]
    split
    · exact h.nodup
    · rename_i hnew
      exact List.concat_eq_append ▸ h.nodup.concat hnew
  case names =>
    rcases mem_changeEntry he with he | ⟨node, rfl, -⟩
    · exact h.isName he
    · exact hname
  case nodes =>
    rcases mem_changeEntry he with he | ⟨node, rfl, hnode⟩
    · exact h.node_of_mem he
    · exact hf node fun n hn => h.node_of_mem (hnode n hn)

/-! ## Trees -/

theorem Node.wellFormed_emptyDir : (Node.dir []).WellFormed :=
  .dir List.nodup_nil nofun nofun

theorem Node.wellFormed_singleton {name : String} {node : Node} (hname : IsName name)
    (hnode : node.WellFormed) : (Node.dir [(name, node)]).WellFormed :=
  .dir (List.nodup_singleton _) (by simpa using hname) (by simpa using hnode)

/-- The entries of what may be there make a well-formed directory. -/
theorem Node.wellFormed_entries {node : Option Node} (h : ∀ n ∈ node, n.WellFormed) :
    (Node.dir ((node.map Node.entries).getD [])).WellFormed := by
  cases node with
  | none => exact wellFormed_emptyDir
  | some node =>
    cases node with
    | file content => exact wellFormed_emptyDir
    | dir entries => exact h _ rfl

theorem Node.wellFormed_changeAt
    (hf : ∀ node, (∀ n ∈ node, n.WellFormed) → (f node).WellFormed) :
    ∀ (names : List String) (node : Option Node), (∀ name ∈ names, IsName name) →
      (∀ n ∈ node, n.WellFormed) → (changeAt f names node).WellFormed
  | [], node, _, hnode => hf node hnode
  | _ :: rest, node, hnames, hnode => by
      obtain ⟨hname, hrest⟩ := List.forall_mem_cons.mp hnames
      exact (wellFormed_entries hnode).changeEntry hname
        fun next hnext => wellFormed_changeAt hf rest next hrest hnext

variable {tree : FileTree} {p : Path}

/-- **A change along names keeps a tree well-formed**, if it makes well-formed nodes. -/
theorem WellFormed.change (h : tree.WellFormed) (hnames : ∀ name ∈ tree.names p, IsName name)
    (hf : ∀ node, (∀ n ∈ node, n.WellFormed) → (f node).WellFormed) :
    (tree.change p f).WellFormed := by
  refine Node.wellFormed_changeAt hf _ _ hnames fun node hnode => ?_
  obtain rfl := Option.mem_some_iff.mp hnode
  exact h

theorem WellFormed.writeFile (h : tree.WellFormed) (hnames : ∀ name ∈ tree.names p, IsName name)
    (content : ByteArray) : (tree.writeFile p content).WellFormed :=
  h.change hnames fun _ _ => .file content

theorem WellFormed.makeDir (h : tree.WellFormed) (hnames : ∀ name ∈ tree.names p, IsName name) :
    (tree.makeDir p).WellFormed :=
  h.change hnames fun _ hnode => Node.wellFormed_entries hnode

theorem wellFormed_empty {workingDir : List String} (hnames : ∀ name ∈ workingDir, IsName name) :
    (empty workingDir).WellFormed :=
  Node.wellFormed_changeAt (fun _ _ => Node.wellFormed_emptyDir) _ _ hnames nofun

end SkillLint.FileTree
