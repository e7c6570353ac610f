import Mathlib.Data.List.Infix
import SkillLint.Proofs.FileTree.Added
import SkillLint.Proofs.Workflow.OrphanVerdict
import SkillLint.Proofs.Workflow.Sight

/-!
# Orphans in a growing project

A project grows by files below its directory of commands.  A new record may give the path of a
document that was an orphan; it gives nothing if it cannot be loaded or has the name of the
manifest, and it never makes an orphan.  A new document may be an orphan itself, and says nothing
about the others.

So **a new record only takes issues away, those about the path that it gives, and a new document
adds at most the issue about itself** (`orphanIssues_grow`); all other issues stay as they are, in
their order.  Nothing is asked of what the new file holds, and directories may have been made for
it.
-/

namespace SkillLint.Workflow

open FileTree (AddsFile)

variable {w : Workflow} {tree tree' : FileTree} {file : Path} {base below names : List String}
  {content : ByteArray} {name text : String}

/-- The path that the record in a file gives, if it can be loaded and gives one. -/
def recordPath? (w : Workflow) (tree : FileTree) (file : Path) : Option String :=
  match w.loadRecord tree file with
  | .ok record => (record.get? "path").bind Value.scalarText?
  | .error _ => none

theorem mem_referencedPaths_iff_recordPath? : text ∈ w.referencedPaths tree ↔
    ∃ file ∈ w.recordFiles tree, w.recordPath? tree file = some text :=
  List.mem_filterMap

/-- The second list has the items of the first in their order, and at most one more: this one. -/
def AddsAtMost (i : Issue) (issues issues' : List Issue) : Prop :=
  issues' = issues ∨ ∃ before after, issues = before ++ after ∧ issues' = before ++ i :: after

theorem addsAtMost_map_filter (issue : Path → Issue) (keep : Path → Bool) (before after : List Path)
    (p : Path) : AddsAtMost (issue p) (((before ++ after).filter keep).map issue)
      (((before ++ p :: after).filter keep).map issue) := by
  rw [List.filter_append, List.filter_append, List.map_append, List.map_append]
  by_cases hp : keep p = true
  · rw [List.filter_cons_of_pos hp, List.map_cons]
    exact .inr ⟨_, _, rfl, rfl⟩
  · rw [List.filter_cons_of_neg hp]
    exact .inl rfl

/-! ## One more file -/

section Added

variable (h : AddsFile (base ++ names) content tree tree') (htree : tree.WellFormed)
  (htree' : tree'.WellFormed) (hdir : tree.isDir w.commandsDir = true)
  (hbase : tree.locate w.commandsDir = .ok base)
include h htree htree' hdir hbase

theorem mem_recordFiles_of_added : file ∈ w.recordFiles tree' ↔
    file ∈ w.recordFiles tree ∨ file = w.commandsDir.joinAll names ∧
      file.extension? = some "yaml" ∧ w.isManifest file = false := by
  rw [recordFiles, recordFiles, List.mem_filter, List.mem_filter,
    h.mem_filesWithExtension_iff htree htree' hdir hbase, Bool.not_eq_true']
  constructor
  · rintro ⟨hold | ⟨rfl, hyaml⟩, hother⟩
    · exact .inl ⟨hold, hother⟩
    · exact .inr ⟨rfl, hyaml, hother⟩
  · rintro (⟨hold, hother⟩ | ⟨rfl, hyaml, hother⟩)
    · exact ⟨.inl hold, hother⟩
    · exact ⟨.inr ⟨rfl, hyaml⟩, hother⟩

/-- The records that were there give what they gave. -/
theorem recordPath?_of_added (hfile : file ∈ w.recordFiles tree) :
    w.recordPath? tree' file = w.recordPath? tree file := by
  obtain ⟨⟨_, hwalk⟩, -⟩ :=
    FileTree.mem_filesWithExtension_iff.mp (List.mem_filter.mp hfile).1
  rw [recordPath?, recordPath?,
    loadRecord_congr_text (h.readText_eq htree htree' hdir hbase hwalk)]

/-- **The given paths are those that were given, and that of the new record.** -/
theorem mem_referencedPaths_of_added : text ∈ w.referencedPaths tree' ↔
    text ∈ w.referencedPaths tree ∨ w.commandsDir.joinAll names ∈ w.recordFiles tree' ∧
      w.recordPath? tree' (w.commandsDir.joinAll names) = some text := by
  rw [mem_referencedPaths_iff_recordPath?, mem_referencedPaths_iff_recordPath?]
  constructor
  · rintro ⟨file, hfile, htext⟩
    rcases (mem_recordFiles_of_added h htree htree' hdir hbase).mp hfile with hold | ⟨rfl, -⟩
    · exact .inl ⟨file, hold, recordPath?_of_added h htree htree' hdir hbase hold ▸ htext⟩
    · exact .inr ⟨hfile, htext⟩
  · rintro (⟨file, hold, htext⟩ | ⟨hfile, htext⟩)
    · exact ⟨file, (mem_recordFiles_of_added h htree htree' hdir hbase).mpr (.inl hold),
        (recordPath?_of_added h htree htree' hdir hbase hold).trans htext⟩
    · exact ⟨_, hfile, htext⟩

/-! ## A record -/

/-- **A new file that is no document makes no orphan.** -/
theorem unlabelled_sublist_of_added
    (hother : (w.commandsDir.joinAll names).extension? ≠ some "md") :
    (w.unlabelled tree').Sublist (w.unlabelled tree) := by
  rw [unlabelled, unlabelled, h.filesWithExtension_eq htree htree' hdir hbase hother]
  refine List.monotone_filter_right _ fun p hp => ?_
  simp only [Bool.not_eq_true', List.contains_eq_mem, decide_eq_false_iff_not] at hp ⊢
  intro hlabel
  exact hp ((mem_referencedPaths_of_added h htree htree' hdir hbase).mpr (.inl hlabel))

/-- **A document is no orphan any more only if the new record gives its label.** -/
theorem file_eq_of_settled (hother : (w.commandsDir.joinAll names).extension? ≠ some "md")
    {i : Issue} (hi : i ∈ w.orphanIssues tree) (hi' : i ∉ w.orphanIssues tree') :
    i.file = w.recordPath? tree' (w.commandsDir.joinAll names) := by
  rw [orphanIssues_eq hdir] at hi
  rw [orphanIssues_eq (h.isDir_eq_true hdir)] at hi'
  obtain ⟨p, hp, rfl⟩ := List.mem_map.mp hi
  obtain ⟨hdocument, hlabel⟩ := List.mem_filter.mp hp
  rw [← h.filesWithExtension_eq htree htree' hdir hbase hother] at hdocument
  have hgiven : w.relative p ∈ w.referencedPaths tree' := by
    by_contra hnone
    refine hi' (List.mem_map_of_mem (List.mem_filter.mpr ⟨hdocument, ?_⟩))
    simpa using hnone
  rcases (mem_referencedPaths_of_added h htree htree' hdir hbase).mp hgiven with hold | ⟨-, hnew⟩
  · simp [hold] at hlabel
  · exact hnew.symm

/-! ## A document -/

/-- A new file that is no record gives nothing. -/
theorem contains_referencedPaths_of_added
    (hother : (w.commandsDir.joinAll names).extension? ≠ some "yaml") (label : String) :
    (w.referencedPaths tree').contains label = (w.referencedPaths tree).contains label := by
  have hnotListed : w.commandsDir.joinAll names ∉ w.recordFiles tree' := fun hlisted =>
    hother (FileTree.mem_filesWithExtension_iff.mp (List.mem_filter.mp hlisted).1).2
  rw [Bool.eq_iff_iff, List.contains_iff_mem, List.contains_iff_mem,
    mem_referencedPaths_of_added h htree htree' hdir hbase]
  simp only [hnotListed, false_and, or_false]

/-- **A new file that is no record changes nothing about other documents.** -/
theorem addsAtMost_of_added (hother : (w.commandsDir.joinAll names).extension? ≠ some "yaml") :
    AddsAtMost (orphanIssue (w.relative (w.commandsDir.joinAll names))) (w.orphanIssues tree)
      (w.orphanIssues tree') := by
  rw [orphanIssues_eq hdir, orphanIssues_eq (h.isDir_eq_true hdir)]
  simp only [unlabelled, contains_referencedPaths_of_added h htree htree' hdir hbase hother,
    List.filter_filter]
  by_cases hmarkdown : (w.commandsDir.joinAll names).extension? = some "md"
  · obtain ⟨before, after, hold, hnew⟩ :=
      h.exists_filesWithExtension htree htree' hdir hbase hmarkdown
    rw [hold, hnew]
    exact addsAtMost_map_filter _ _ before after _
  · rw [h.filesWithExtension_eq htree htree' hdir hbase hmarkdown]
    exact .inl rfl

end Added

/-! ## The verdict -/

/-- A name that ends with one extension has no other. -/
theorem extension?_joinAll_ne {stem extension other : String}
    (hname : IsName (stem ++ "." ++ extension)) (hdot : '.' ∉ extension.toList) (hne : extension ≠ other) (p : Path) (below : List String) :
    (p.joinAll (below ++ [stem ++ "." ++ extension])).extension? ≠ some other := by
  rw [Path.joinAll, List.foldl_concat, Path.extension?, Path.fileName?_join hname, Option.bind_some,
    Path.extensionOf?_append hdot]
  split
  · exact nofun
  · exact fun hsame => hne (Option.some.inj hsame)

/-- **Orphans change little when a project grows.**  A new record, whatever its name, leaves some of
the issues about orphans, in their order, and those that it takes away are about the path that it
gives.  A new document adds at most an issue about itself, and leaves all the others. -/
theorem orphanIssues_grow (w : Workflow)
    (h : AddsFile (base ++ (below ++ [name])) content tree tree') (htree : tree.WellFormed)
    (htree' : tree'.WellFormed) (hdir : tree.isDir w.commandsDir = true)
    (hbase : tree.locate w.commandsDir = .ok base) :
    ((∃ stem, name = stem ++ ".yaml") →
      (w.orphanIssues tree').Sublist (w.orphanIssues tree) ∧
        ∀ i ∈ w.orphanIssues tree, i ∉ w.orphanIssues tree' →
          i.file = w.recordPath? tree' (w.commandsDir.joinAll (below ++ [name]))) ∧
    ((∃ stem, name = stem ++ ".md") →
      AddsAtMost (orphanIssue (w.relative (w.commandsDir.joinAll (below ++ [name]))))
        (w.orphanIssues tree) (w.orphanIssues tree')) := by
  have hname : IsName name := (htree'.at? h.present).2 name (by simp)
  constructor
  · rintro ⟨stem, rfl⟩
    have hsplit : stem ++ ".yaml" = stem ++ "." ++ "yaml" := by
      rw [String.append_assoc]
      rfl
    rw [hsplit] at hname h ⊢
    have hother := extension?_joinAll_ne hname (by decide) (by decide : "yaml" ≠ "md")
      w.commandsDir below
    refine ⟨?_, fun i hi hi' => file_eq_of_settled h htree htree' hdir hbase hother hi hi'⟩
    rw [orphanIssues_eq hdir, orphanIssues_eq (h.isDir_eq_true hdir)]
    exact (unlabelled_sublist_of_added h htree htree' hdir hbase hother).map _
  · rintro ⟨stem, rfl⟩
    have hsplit : stem ++ ".md" = stem ++ "." ++ "md" := by
      rw [String.append_assoc]
      rfl
    rw [hsplit] at hname h ⊢
    exact addsAtMost_of_added h htree htree' hdir hbase
      (extension?_joinAll_ne hname (by decide) (by decide : "md" ≠ "yaml") w.commandsDir below)

/-- A project with one document. -/
def documentTree : FileTree :=
  (FileTree.empty []).writeFile ⟨"commands/draft.md"⟩ "# Draft".toUTF8

theorem wellFormed_documentTree : documentTree.WellFormed :=
  (FileTree.wellFormed_empty (by decide)).writeFile (by decide) _

/-- Files are added to the project with one document. -/
theorem addsFile_documentTree {p : Path} {location : List String} (content : ByteArray)
    (hnames : documentTree.names p = location)
    (habsent : (documentTree.top.at? location).isNone = true)
    (hunblocked : ∀ names ∈ location.inits, (documentTree.top.at? names).all FileTree.Node.isDir) :
    AddsFile location content documentTree (documentTree.writeFile p content) := by
  subst hnames
  exact FileTree.addsFile_writeFile (Option.isNone_iff_eq_none.mp habsent)
    (fun names hway => hunblocked names ((List.mem_inits names _).mpr hway)) content

/-- A record in a new directory gives the path of the document, and a second document has none. -/
theorem orphanIssues_grow_documentTree :
    (draftWorkflow.orphanIssues documentTree = [orphanIssue "commands/draft.md"]) ∧
    (draftWorkflow.orphanIssues (documentTree.writeFile ⟨"commands/new/draft.yaml"⟩
      "path: commands/draft.md".toUTF8)).Sublist (draftWorkflow.orphanIssues documentTree) ∧
    AddsAtMost (orphanIssue "commands/stray.md") (draftWorkflow.orphanIssues documentTree)
      (draftWorkflow.orphanIssues (documentTree.writeFile ⟨"commands/stray.md"⟩ "".toUTF8)) := by
  have hdir : documentTree.isDir draftWorkflow.commandsDir = true := by decide +kernel
  have hbase : documentTree.locate draftWorkflow.commandsDir = .ok ["commands"] := by
    decide +kernel
  have hrecord := addsFile_documentTree (p := ⟨"commands/new/draft.yaml"⟩)
    "path: commands/draft.md".toUTF8 (by decide +kernel :
      _ = ["commands"] ++ (["new"] ++ ["draft.yaml"])) (by decide +kernel) (by decide +kernel)
  have hdocument := addsFile_documentTree (p := ⟨"commands/stray.md"⟩) "".toUTF8
    (by decide +kernel : _ = ["commands"] ++ ([] ++ ["stray.md"])) (by decide +kernel)
    (by decide +kernel)
  refine ⟨by decide +kernel, ?_, ?_⟩
  · exact ((orphanIssues_grow draftWorkflow hrecord wellFormed_documentTree
      (wellFormed_documentTree.writeFile (by decide +kernel) _) hdir hbase).1 ⟨"draft", rfl⟩).1
  · exact (orphanIssues_grow draftWorkflow hdocument wellFormed_documentTree
      (wellFormed_documentTree.writeFile (by decide +kernel) _) hdir hbase).2 ⟨"stray", rfl⟩

end SkillLint.Workflow
