import SkillLint.Proofs.FileTree.Built
import SkillLint.Proofs.FileTree.Walks
import SkillLint.Proofs.Workflow.Labels
import SkillLint.Workflow.Orphans

/-!
# Orphans and the paths of records

A record points at a document if the path that it gives, resolved against the root of the project,
has the steps of the document (`PointedAt`).  The check for orphans does not resolve: it compares
the text of the path with the label of the document, which is one spelling among many.

The label leads back to the document (`components_resolve_relative`), so every document that no
record points at is reported.  But **the reported documents are exactly these only if every
document that is pointed at is also pointed at by its label** (`reportsOrphans_iff`); a dot in
front of the path is enough for a document to be reported although its record is found
(`not_reportsOrphans`).
-/

namespace SkillLint.Workflow

variable {w : Workflow} {tree : FileTree} {p q : Path}

/-- The documents of a project lie below its root, or below an absolute path. -/
theorem prefix_or_absolute_of_mem_walk {root : Path} {text : String} {node : FileTree.Node}
    (htree : tree.WellFormed) (hwalk : (p, node) ∈ tree.walk (root.join text)) :
    root.components <+: p.components ∨ p.components.head? = some .root := by
  rw [FileTree.walk] at hwalk
  split at hwalk
  · rename_i hfind
    obtain ⟨names, -, -, -, hsteps⟩ :=
      FileTree.components_of_mem_walkFrom (htree.find hfind) hwalk
    rw [hsteps]
    rcases Path.prefix_or_absolute_join root text with hbelow | habsolute
    · exact .inl (hbelow.trans (List.prefix_append _ _))
    · refine .inr ?_
      rw [List.head?_append, habsolute]
      rfl
  · cases hwalk

/-! ## Orphans -/

/-- The file is a command document: markdown below the directory of commands, neither the
introduction of a directory nor below a directory of references. -/
structure IsDocument (w : Workflow) (tree : FileTree) (p : Path) : Prop where
  walked : ∃ content, (p, .file content) ∈ tree.walk w.commandsDir
  markdown : p.extension? = some "md"
  notIndex : p.fileName? ≠ some Schema.commandIndexFile
  notReference : .normal Schema.referencesDir ∉ w.stepsBelowRoot p

/-- A record that loads gives a path that resolves to the document. -/
def PointedAt (w : Workflow) (tree : FileTree) (p : Path) : Prop :=
  ∃ file ∈ w.recordFiles tree, ∃ record text, w.loadRecord tree file = .ok record ∧
    (record.get? "path").bind Value.scalarText? = some text ∧
      (w.resolve text).components = p.components

/-- The document is one that no record points at. -/
def IsOrphan (w : Workflow) (tree : FileTree) (p : Path) : Prop :=
  w.IsDocument tree p ∧ ¬ w.PointedAt tree p

/-- The issue about a document, which is known by its label. -/
def orphanIssue (label : String) : Issue :=
  ⟨orphansScope, orphansCheck, .warning, "Command file has no YAML definition: " ++ label,
    some label⟩

/-- The issues are about the orphans, about each once, in the order of their paths. -/
def ReportsOrphans (w : Workflow) (tree : FileTree) (issues : List Issue) : Prop :=
  ∃ files : List Path, files.Pairwise Path.Lt ∧ (∀ p, p ∈ files ↔ w.IsOrphan tree p) ∧
    issues = files.map fun p => orphanIssue (w.relative p)

theorem mem_documents_iff :
    p ∈ (tree.filesWithExtension w.commandsDir "md").filter w.isCommandDocument ↔
      w.IsDocument tree p := by
  rw [List.mem_filter, FileTree.mem_filesWithExtension_iff, isCommandDocument]
  simp only [Bool.and_eq_true, Bool.not_eq_true', List.contains_eq_mem, decide_eq_false_iff_not,
    bne_iff_ne]
  exact ⟨fun ⟨⟨hwalk, hmd⟩, hreference, hindex⟩ => ⟨hwalk, hmd, hindex, hreference⟩,
    fun ⟨hwalk, hmd, hindex, hreference⟩ => ⟨⟨hwalk, hmd⟩, hreference, hindex⟩⟩

theorem mem_referencedPaths_iff {text : String} : text ∈ w.referencedPaths tree ↔
    ∃ file ∈ w.recordFiles tree, ∃ record, w.loadRecord tree file = .ok record ∧
      (record.get? "path").bind Value.scalarText? = some text := by
  rw [referencedPaths, List.mem_filterMap]
  refine exists_congr fun file => and_congr_right fun _ => ?_
  cases w.loadRecord tree file <;> simp

theorem pointedAt_iff : w.PointedAt tree p ↔
    ∃ text ∈ w.referencedPaths tree, (w.resolve text).components = p.components := by
  constructor
  · rintro ⟨file, hfile, record, text, hload, htext, hsteps⟩
    exact ⟨text, mem_referencedPaths_iff.mpr ⟨file, hfile, record, hload, htext⟩, hsteps⟩
  · rintro ⟨text, htext, hsteps⟩
    obtain ⟨file, hfile, record, hload, htext⟩ := mem_referencedPaths_iff.mp htext
    exact ⟨file, hfile, record, text, hload, htext, hsteps⟩

/-- The documents that the check reports: no record gives their label. -/
def unlabelled (w : Workflow) (tree : FileTree) : List Path :=
  ((tree.filesWithExtension w.commandsDir "md").filter w.isCommandDocument).filter
    fun p => !(w.referencedPaths tree).contains (w.relative p)

theorem mem_unlabelled_iff : p ∈ w.unlabelled tree ↔
    w.IsDocument tree p ∧ w.relative p ∉ w.referencedPaths tree := by
  rw [unlabelled, List.mem_filter, mem_documents_iff]
  simp

theorem pairwise_lt_unlabelled (htree : tree.WellFormed) :
    (w.unlabelled tree).Pairwise Path.Lt :=
  ((FileTree.pairwise_lt_filesWithExtension htree _ _).filter _).filter _

theorem orphanIssues_eq (hdir : tree.isDir w.commandsDir = true) :
    w.orphanIssues tree = (w.unlabelled tree).map fun p => orphanIssue (w.relative p) := by
  rw [orphanIssues, if_pos hdir, orphans, List.filter_map, List.map_map]
  rfl

/-! ## The verdict -/

section Project

variable {root : Path} {paths : ProjectPaths} {parser : HeaderParser}

theorem components_resolve_relative_of_isDocument (htree : tree.WellFormed)
    (hp : (ofProject root paths parser).IsDocument tree p) :
    ((ofProject root paths parser).resolve ((ofProject root paths parser).relative p)).components =
      p.components := by
  obtain ⟨content, hwalk⟩ := hp.walked
  exact components_resolve_relative (prefix_or_absolute_of_mem_walk htree hwalk)

/-- Documents with the same label are the same. -/
theorem eq_of_relative_eq (htree : tree.WellFormed)
    (hp : (ofProject root paths parser).IsDocument tree p)
    (hq : (ofProject root paths parser).IsDocument tree q)
    (hlabel : (ofProject root paths parser).relative p = (ofProject root paths parser).relative q) :
    p = q := by
  have hsteps := components_resolve_relative_of_isDocument htree hp
  rw [hlabel, components_resolve_relative_of_isDocument htree hq] at hsteps
  obtain ⟨content, hwalk⟩ := hp.walked
  obtain ⟨content', hwalk'⟩ := hq.walked
  exact (FileTree.distinctSteps_walk htree _).eq_of_mem (List.mem_map_of_mem hwalk)
    (List.mem_map_of_mem hwalk') hsteps.symm

/-- **Whatever no record points at is reported.** -/
theorem IsOrphan.mem_unlabelled (htree : tree.WellFormed)
    (hp : (ofProject root paths parser).IsOrphan tree p) :
    p ∈ (ofProject root paths parser).unlabelled tree := by
  refine mem_unlabelled_iff.mpr ⟨hp.1, fun hlabel => hp.2 (pointedAt_iff.mpr ⟨_, hlabel, ?_⟩)⟩
  exact components_resolve_relative_of_isDocument htree hp.1

theorem orphanIssue_injective : Function.Injective orphanIssue := by
  intro label label' h
  exact Option.some.inj (congrArg Issue.file h)

/-- **The reported documents are the orphans exactly if labels are the only way in which records
point at documents.**  Below the directory of commands every orphan is reported; and what is
reported are the orphans and nothing else, each once and in the order of paths, if and only if
every document that a record points at has its label given by a record. -/
theorem reportsOrphans_iff (root : Path) (paths : ProjectPaths) (parser : HeaderParser)
    (htree : tree.WellFormed) (hdir : tree.isDir (root.join paths.commandsDir) = true) :
    let w := ofProject root paths parser
    (∀ p, w.IsOrphan tree p → orphanIssue (w.relative p) ∈ w.orphanIssues tree) ∧
      (w.ReportsOrphans tree (w.orphanIssues tree) ↔
        ∀ p, w.IsDocument tree p → w.PointedAt tree p →
          w.relative p ∈ w.referencedPaths tree) := by
  intro w
  rw [orphanIssues_eq hdir]
  refine ⟨fun p hp => List.mem_map.mpr ⟨p, hp.mem_unlabelled htree, rfl⟩, ?exact, ?labels⟩
  case exact =>
    rintro ⟨files, -, horphans, hissues⟩ p hp hpointed
    -- Otherwise the document is reported, and since labels tell documents apart it is an orphan.
    by_contra hlabel
    have hmem : orphanIssue (w.relative p) ∈ files.map fun q => orphanIssue (w.relative q) :=
      hissues ▸ List.mem_map.mpr ⟨p, mem_unlabelled_iff.mpr ⟨hp, hlabel⟩, rfl⟩
    obtain ⟨q, hq, hsame⟩ := List.mem_map.mp hmem
    have horphan := (horphans q).mp hq
    obtain rfl := eq_of_relative_eq htree horphan.1 hp (orphanIssue_injective hsame)
    exact horphan.2 hpointed
  case labels =>
    intro hlabels
    refine ⟨w.unlabelled tree, pairwise_lt_unlabelled htree, fun p => ?_, rfl⟩
    refine ⟨fun hp => ?_, fun hp => hp.mem_unlabelled htree⟩
    obtain ⟨hdocument, hlabel⟩ := mem_unlabelled_iff.mp hp
    exact ⟨hdocument, fun hpointed => hlabel (hlabels p hdocument hpointed)⟩

end Project

/-! ## A document and its record -/

/-- A document, and a record that gives the path. -/
def draftTree (path : String) : FileTree :=
  ((FileTree.empty []).writeFile ⟨"commands/draft.md"⟩ "# Draft".toUTF8).writeFile
    ⟨"commands/draft.yaml"⟩ ("command: draft\npath: " ++ path).toUTF8

/-- The workflow of the project, its parts in the usual places. -/
def draftWorkflow : Workflow := ofProject ⟨"."⟩ .default .full

theorem wellFormed_draftTree (path : String) : (draftTree path).WellFormed :=
  ((FileTree.wellFormed_empty (by decide)).writeFile (by decide) _).writeFile
    (by decide) _

theorem reportsOrphans_labelledDraft : (draftTree "commands/draft.md").WellFormed ∧
    (draftTree "commands/draft.md").isDir draftWorkflow.commandsDir = true ∧
      draftWorkflow.ReportsOrphans (draftTree "commands/draft.md")
        (draftWorkflow.orphanIssues (draftTree "commands/draft.md")) := by
  have hdir : (draftTree "commands/draft.md").isDir draftWorkflow.commandsDir = true := by
    decide +kernel
  have hverdict :=
    reportsOrphans_iff ⟨"."⟩ .default .full (wellFormed_draftTree "commands/draft.md") hdir
  refine ⟨wellFormed_draftTree _, hdir, hverdict.2.mpr fun p hp _ => ?_⟩
  have hdocuments : ((draftTree "commands/draft.md").filesWithExtension
      draftWorkflow.commandsDir "md").filter draftWorkflow.isCommandDocument =
        [⟨"./commands/draft.md"⟩] := by
    decide +kernel
  obtain rfl : p = ⟨"./commands/draft.md"⟩ :=
    List.mem_singleton.mp (hdocuments ▸ mem_documents_iff.mpr hp)
  decide +kernel

/-- The reported documents are not always the orphans: a record that is found may give the path of
its document in another spelling. -/
theorem not_reportsOrphans : ¬ ∀ (root : Path) (paths : ProjectPaths) (parser : HeaderParser)
    (tree : FileTree), tree.WellFormed → tree.isDir (root.join paths.commandsDir) = true →
      (ofProject root paths parser).ReportsOrphans tree
        ((ofProject root paths parser).orphanIssues tree) := by
  intro h
  have hissues : draftWorkflow.orphanIssues (draftTree "./commands/draft.md") =
      [orphanIssue "commands/draft.md"] := by
    decide +kernel
  have hdocuments : ((draftTree "./commands/draft.md").filesWithExtension
      draftWorkflow.commandsDir "md").filter draftWorkflow.isCommandDocument =
        [⟨"./commands/draft.md"⟩] := by
    decide +kernel
  have hpointed : draftWorkflow.PointedAt (draftTree "./commands/draft.md")
      ⟨"./commands/draft.md"⟩ :=
    pointedAt_iff.mpr ⟨"./commands/draft.md", by decide +kernel, by decide +kernel⟩
  have hreports : draftWorkflow.ReportsOrphans (draftTree "./commands/draft.md")
      (draftWorkflow.orphanIssues (draftTree "./commands/draft.md")) :=
    h _ _ _ _ (wellFormed_draftTree _) (by decide +kernel)
  obtain ⟨files, -, horphans, hfiles⟩ := hreports
  have hreported : orphanIssue "commands/draft.md" ∈
      files.map fun p => orphanIssue (draftWorkflow.relative p) := by
    rw [← hfiles, hissues]
    exact List.mem_singleton_self _
  obtain ⟨p, hp, -⟩ := List.mem_map.mp hreported
  obtain ⟨hdocument, hunpointed⟩ := (horphans p).mp hp
  obtain rfl : p = ⟨"./commands/draft.md"⟩ :=
    List.mem_singleton.mp (hdocuments ▸ mem_documents_iff.mpr hdocument)
  exact hunpointed hpointed

end SkillLint.Workflow
