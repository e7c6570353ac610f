import SkillLint.Proofs.Workflow.Findings
import SkillLint.Text.Search

/-!
# Commands that are listed twice

The commands of a manifest are those of its phases, in their order, and then the utilities
(`listedCommands`).  One registry goes through all of them, past phases that are no mappings, past
entries that are none, and past commands without a name.

To the registry a call is as good as the calls before it: it answers with a message exactly when
one and only one of them had the same name.  Hence **a repeated command is reported once, whatever
the number of its repetitions and wherever they stand** (`duplicates_reported_once`): the issues
about duplicates are one error for every name that is listed at least twice, in the order of the
second listings.
-/

namespace SkillLint.Workflow

open ManifestFinding SkillLint.Text

variable {w : Workflow} {tree : FileTree} {manifest phases : Mapping} {listing : Listing}
  {earlier : List String}

/-- The issue says that a command is listed twice.  No other issue about a manifest begins so. -/
def isDuplicateIssue (i : Issue) : Bool := startsWith "Duplicate command: '".toList i.message.toList

theorem isDuplicateIssue_findingIssue (w : Workflow) (f : ManifestFinding) :
    isDuplicateIssue (w.findingIssue f) = f.isRepeated := by
  have hopening : isDuplicateIssue (w.findingIssue f) = true ↔ (repeated "").opening = f.opening :=
    startsWith_opening_iff f (repeated "")
  rw [Bool.eq_iff_iff, hopening]
  cases f with
  | unrecorded listing command definition =>
      show "Duplicate command: '" = listing.label ++ " '" ↔ false = true
      cases listing <;> decide
  | _ => simp [opening, isRepeated]

/-! ## Repeated commands among the findings -/

theorem filter_isRepeated_listFindings (entries : List Mapping) (earlier : List String) :
    (listFindings w tree listing earlier entries).filter isRepeated =
      (repeatedIn earlier (commandNames entries)).map repeated := by
  rw [filter_listFindings fun _ _ => rfl, filter_map_of_pos fun _ => rfl]

/-- The names behind the phases so far decide which of their commands are repeated. -/
theorem filter_isRepeated_phasesFindings : ∀ (entries : PhaseEntries) (earlier : List String),
    (phasesFindings w tree phases earlier entries).filter isRepeated =
      (repeatedIn earlier (commandNames (phaseCommands entries))).map repeated
  | [], _ => rfl
  | (name, value) :: rest, earlier => by
      rw [phasesFindings]
      cases hvalue : value.asMap? with
      | none =>
          -- what is no mapping lists no command, and the registry passes over it
          rw [phaseCommands_cons_of_none hvalue]
          exact filter_isRepeated_phasesFindings rest earlier
      | some phase =>
          dsimp only
          rw [phaseCommands_cons_of_some hvalue, commandNames_append, repeatedIn_append,
            List.map_append, List.filter_append, List.filter_append,
            filter_phaseShapeFindings_eq_nil (fun _ _ => rfl) (fun _ _ => rfl) (fun _ _ => rfl),
            filter_isRepeated_listFindings, filter_isRepeated_phasesFindings rest,
            List.nil_append]

/-- **The repeated commands among the findings** are the repeated names of all commands. -/
theorem filter_isRepeated_manifestFindings :
    (manifestFindings w tree manifest phases).filter isRepeated =
      (repeatedIn [] (commandNames (listedCommands manifest phases))).map repeated := by
  have hnames : commandNames (listedCommands manifest phases) =
      commandNames (phaseCommands phases.entries) ++ commandNames (manifest.mappings "utilities") :=
    commandNames_append _ _
  rw [manifestFindings, List.filter_append, List.filter_append, List.filter_append,
    filter_map_of_neg fun _ => rfl, filter_mismatches_of_neg fun _ _ _ => rfl,
    filter_isRepeated_phasesFindings, filter_isRepeated_listFindings, hnames, repeatedIn_append,
    List.map_append, List.append_nil, List.append_nil]
  rfl

/-! ## Repeated commands are reported once -/

/-- **Repeated commands are reported once.**  A call of the registry is answered with a message
exactly when its name, which is not empty, was the name of one call before.  So the issues about
duplicates in a manifest with phases are one error for each name that it lists repeatedly. -/
theorem duplicates_reported_once :
    (∀ (earlier : List String) (name : String),
      ((CommandRegistry.empty.registerAll earlier).register name).1 =
        if name ≠ "" ∧ earlier.count name = 1 then some ("Duplicate command: '" ++ name ++ "'")
        else none) ∧
    ∀ (w : Workflow) (tree : FileTree) (manifest phases : Mapping),
      w.loadRecord tree w.manifest = .ok manifest →
      manifest.get? "phases" = some (.map phases.entries) → phases.entries ≠ [] →
      ∃ repeated, ListsRepeated (commandNames (listedCommands manifest phases)) repeated ∧
        (w.manifestIssues tree).filter isDuplicateIssue = repeated.map fun name =>
          ⟨manifestScope, manifestCheck, .error, "Duplicate command: '" ++ name ++ "'",
            some (w.relative w.manifest)⟩ := by
  refine ⟨fun earlier name => ?answer, fun w tree manifest phases hload hdeclared hnonempty => ?_⟩
  case answer =>
    have htracks := CommandRegistry.tracks_empty.registerAll earlier
    exact htracks.answer name
  refine ⟨_, listsRepeated_repeatedIn _, ?_⟩
  have hkind : isDuplicateIssue ∘ w.findingIssue = isRepeated :=
    funext (isDuplicateIssue_findingIssue w)
  rw [manifestIssues_of_load hload, loadedIssues_eq (phasesOf_eq_ok_iff.mpr ⟨hdeclared, hnonempty⟩),
    List.filter_map, hkind, filter_isRepeated_manifestFindings, List.map_map]
  rfl

/-- A command that two phases and the utilities list, three times in all, and one that the
utilities list twice. -/
def repeatingTree : FileTree :=
  (FileTree.empty []).writeFile sampleWorkflow.manifest
    ("phases:\n a:\n  commands:\n  - command: c\n b:\n  commands:\n  - command: c\n" ++
      "utilities:\n- command: d\n- command: d\n- command: c\n").toUTF8

theorem duplicates_reported_once_repeatingTree : ∃ manifest phases repeated,
    sampleWorkflow.loadRecord repeatingTree sampleWorkflow.manifest = .ok manifest ∧
      manifest.get? "phases" = some (.map phases.entries) ∧ phases.entries ≠ [] ∧
      commandNames (listedCommands manifest phases) = ["c", "c", "d", "d", "c"] ∧
      ListsRepeated ["c", "c", "d", "d", "c"] repeated ∧
      (sampleWorkflow.manifestIssues repeatingTree).filter isDuplicateIssue =
        repeated.map fun name => ⟨manifestScope, manifestCheck, .error,
          "Duplicate command: '" ++ name ++ "'",
          some (sampleWorkflow.relative sampleWorkflow.manifest)⟩ := by
  have hlisted : (sampleWorkflow.loadedPhases? repeatingTree).map
      (fun loaded => commandNames (listedCommands loaded.1 loaded.2)) =
        some ["c", "c", "d", "d", "c"] := by
    decide +kernel
  obtain ⟨⟨manifest, phases⟩, hloaded, hnames⟩ := Option.map_eq_some_iff.mp hlisted
  obtain ⟨hload, hphases⟩ := loadedPhases?_eq_some_iff.mp hloaded
  obtain ⟨hdeclared, hnonempty⟩ := phasesOf_eq_ok_iff.mp hphases
  obtain ⟨repeated, hrepeated, hissues⟩ := duplicates_reported_once.2 sampleWorkflow repeatingTree
    manifest phases hload hdeclared hnonempty
  exact ⟨manifest, phases, repeated, hload, hdeclared, hnonempty, hnames, hnames ▸ hrepeated,
    hissues⟩

end SkillLint.Workflow
