import SkillLint.Proofs.Workflow.ManifestVerdict

/-!
# Manifests and the records that they name

A manifest lists commands under names, with the files of their records.  The check of the
manifest compares the two names only where there is a record to compare with, and passes
over files that cannot be loaded, for these are left to the check of the records.  That
check, however, goes through `recordFiles`: the `yaml` files below the directory of
commands, except those that have the name of the manifest.

So a workflow without errors keeps its promise for every record that was visited, by
whatever path (`Agrees` follows).  **For the other files it holds if and only if they load,
as a record that is not empty unless the command has no name**
(`agrees_iff_loads_of_noErrors`).  A directory, a file with another extension that is not
YAML, and an empty mapping go unnoticed by both checks (`not_agrees_of_noErrors`).
-/

namespace SkillLint.Workflow

/-- The file of a listed command is a file, and its record gives the command the name under
which it is listed. -/
def Agrees (w : Workflow) (tree : FileTree) (entry : Mapping) : Prop :=
  tree.isFile (w.resolve (entry.text "definition")) = true ∧
    ∃ record, w.loadRecord tree (w.resolve (entry.text "definition")) = .ok record ∧
      record.text "command" = entry.text "command"

/-- The file of a listed command loads as a record, and only a command without name has an
empty one. -/
def Loads (w : Workflow) (tree : FileTree) (entry : Mapping) : Prop :=
  ∃ record, w.loadRecord tree (w.resolve (entry.text "definition")) = .ok record ∧
    (record.isEmpty = true → entry.text "command" = "")

/-- The check of the records visits the file of a listed command, perhaps by another path. -/
def Visited (w : Workflow) (tree : FileTree) (entry : Mapping) : Prop :=
  ∃ file ∈ w.recordFiles tree,
    tree.find file = tree.find (w.resolve (entry.text "definition"))

variable {w : Workflow} {tree : FileTree} {entry : Mapping}

/-- Where the check of the manifest passes, names agree as soon as there are two. -/
theorem agrees_iff_loads (hdefinition : entry.text "definition" ≠ "")
    (hagrees : DefinitionAgrees w tree entry) : Agrees w tree entry ↔ Loads w tree entry := by
  constructor
  · rintro ⟨-, record, hload, hname⟩
    refine ⟨record, hload, fun hempty => ?_⟩
    rw [← hname, text_eq_empty_of_isEmpty hempty]
  · rintro ⟨record, hload, hnamed⟩
    have hfile := isFile_of_loadRecord hload
    refine ⟨hfile, record, hload, ?_⟩
    cases hempty : record.isEmpty with
    -- the check passes over an empty record, so here the names are both empty
    | true => rw [text_eq_empty_of_isEmpty hempty, hnamed hempty]
    | false => exact hagrees hdefinition record hfile hload hempty

/-- A record without errors loads, and is not empty since it declares its fields. -/
theorem loads_of_visited (hrecords : ∀ file ∈ w.recordFiles tree,
    NoErrors (w.recordFileIssues tree file)) (hvisited : Visited w tree entry) :
    Loads w tree entry := by
  obtain ⟨file, hmem, hfind⟩ := hvisited
  obtain ⟨record, hload, hpasses⟩ := noErrors_recordFileIssues_iff.mp (hrecords file hmem)
  have hfields : Passes (fieldRemarks record) := by
    simp only [recordRemarks, passes_append] at hpasses
    exact hpasses.1.1.1.1.1.1
  have hcommand : record.contains "command" = true :=
    (passes_fieldRemarks_iff.mp hfields).1 _ (by decide)
  refine ⟨record, (loadRecord_congr hfind).symm.trans hload, fun hempty => ?_⟩
  rw [isEmpty_eq_false_of_contains hcommand] at hempty
  cases hempty

/-- **The listed commands of a workflow without errors.**  The files of their records
exist.  A record that was visited gives its command the name under which it is listed; any
other does so exactly if it loads, and is not empty for a command with a name. -/
theorem agrees_iff_loads_of_noErrors (h : NoErrors (w.issues tree)) :
    ∃ manifest phases, w.loadRecord tree w.manifest = .ok manifest ∧
      manifest.get? "phases" = some (.map phases.entries) ∧
      ∀ entry ∈ listedCommands manifest phases, entry.text "definition" ≠ "" →
        tree.pathExists (w.resolve (entry.text "definition")) = true ∧
        (Agrees w tree entry ↔ Loads w tree entry) ∧
        (Visited w tree entry → Agrees w tree entry) := by
  obtain ⟨⟨hrecords, hmanifest⟩, -⟩ : (NoErrors (w.recordIssues tree) ∧
      NoErrors (w.manifestIssues tree)) ∧ NoErrors (w.orphanIssues tree) := by
    simpa only [issues, noErrors_append] using h
  obtain ⟨manifest, hload, hpasses⟩ := noErrors_manifestIssues_iff.mp hmanifest
  obtain ⟨phases, hsound⟩ :=
    (passes_manifestRemarks_iff (wellKeyed_of_loadRecord hload)).mp hpasses
  refine ⟨manifest, phases, hload, hsound.declared, fun entry hentry hdefinition => ?_⟩
  have hiff := agrees_iff_loads hdefinition (hsound.agreeing entry hentry)
  refine ⟨hsound.defined entry hentry hdefinition, hiff, fun hvisited => hiff.mpr ?_⟩
  exact loads_of_visited (noErrors_recordIssues_iff.mp hrecords).2 hvisited

/-! ## A record that goes unnoticed -/

/-- One listed command, and a file of its record that is no YAML. -/
def unreadableTree : FileTree :=
  ((FileTree.empty []).writeFile sampleWorkflow.manifest
    "phases:\n a:\n  commands:\n  - command: c\n    definition: d\n".toUTF8).writeFile
      ⟨"d"⟩ "[".toUTF8

theorem noErrors_unreadableTree : NoErrors (sampleWorkflow.issues unreadableTree) := by
  decide +kernel

/-- The files that the manifest of a workflow names, if it loads. -/
def listedDefinitions (w : Workflow) (tree : FileTree) : List String :=
  match w.loadRecord tree w.manifest with
  | .error _ => []
  | .ok manifest =>
    match phasesOf manifest with
    | .error _ => []
    | .ok phases => (listedCommands manifest phases).map (·.text "definition")

theorem mem_listedDefinitions_iff {definition : String} :
    definition ∈ w.listedDefinitions tree ↔ ∃ manifest phases,
      w.loadRecord tree w.manifest = .ok manifest ∧ phasesOf manifest = .ok phases ∧
        ∃ entry ∈ listedCommands manifest phases, entry.text "definition" = definition := by
  rw [listedDefinitions]
  cases w.loadRecord tree w.manifest with
  | error reason => simp
  | ok manifest =>
    cases hphases : phasesOf manifest with
    | error message => simp [hphases]
    | ok phases => simp [hphases]

theorem mem_listedDefinitions_unreadableTree :
    "d" ∈ sampleWorkflow.listedDefinitions unreadableTree := by
  decide +kernel

theorem agrees_iff_loads_unreadableTree : NoErrors (sampleWorkflow.issues unreadableTree) ∧
    ∃ manifest phases, sampleWorkflow.loadRecord unreadableTree sampleWorkflow.manifest =
        .ok manifest ∧
      manifest.get? "phases" = some (.map phases.entries) ∧
      ∃ entry ∈ listedCommands manifest phases, entry.text "definition" = "d" ∧
        (Agrees sampleWorkflow unreadableTree entry ↔
          Loads sampleWorkflow unreadableTree entry) := by
  obtain ⟨manifest, phases, hload, hdeclared, hlisted⟩ :=
    agrees_iff_loads_of_noErrors noErrors_unreadableTree
  obtain ⟨manifest', phases', hload', hphases, entry, hentry, hname⟩ :=
    mem_listedDefinitions_iff.mp mem_listedDefinitions_unreadableTree
  obtain rfl : manifest = manifest' := Except.ok.inj (hload.symm.trans hload')
  have hsame := hdeclared.symm.trans (phasesOf_eq_ok_iff.mp hphases).1
  obtain rfl : phases = phases' := by
    cases phases
    cases phases'
    simpa using hsame
  have hagrees := (hlisted entry hentry (by rw [hname]; decide)).2.1
  exact ⟨noErrors_unreadableTree, manifest, phases, hload, hdeclared, entry, hentry, hname,
    hagrees⟩

/-- That a workflow has no errors is not enough for its listed commands to agree with their
records. -/
theorem not_agrees_of_noErrors : ¬ ∀ (w : Workflow) (tree : FileTree), NoErrors (w.issues tree) →
    ∀ manifest phases, w.loadRecord tree w.manifest = .ok manifest →
      manifest.get? "phases" = some (.map phases.entries) →
        ∀ entry ∈ listedCommands manifest phases, entry.text "definition" ≠ "" →
          Agrees w tree entry := by
  intro h
  obtain ⟨manifest, phases, hload, hphases, entry, hentry, hname⟩ :=
    mem_listedDefinitions_iff.mp mem_listedDefinitions_unreadableTree
  obtain ⟨-, record, hrecord, -⟩ := h sampleWorkflow unreadableTree noErrors_unreadableTree
    manifest phases hload (phasesOf_eq_ok_iff.mp hphases).1 entry hentry (by rw [hname]; decide)
  have hfails : (sampleWorkflow.loadRecord unreadableTree (sampleWorkflow.resolve "d")).isOk =
      false := by
    decide +kernel
  rw [← hname, hrecord] at hfails
  cases hfails

end SkillLint.Workflow
