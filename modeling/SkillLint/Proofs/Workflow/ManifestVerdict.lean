import Mathlib.Tactic.Tauto
import SkillLint.FileTree.Build
import SkillLint.Proofs.Cycles.Components
import SkillLint.Proofs.Workflow.RecordVerdict
import SkillLint.Proofs.Workflow.Registry
import SkillLint.Workflow.Basic

/-!
# When a manifest blocks

`ManifestSound` says what a manifest has to be like, in the words of the manifest: it has
phases, all of them mappings; the files that phases and listed commands name exist; phases
depend on phases only, and none on itself; no command is listed twice; and a record gives
its command the name under which it is listed.  **A manifest that loads has no error
exactly when it is sound** (`noErrors_manifestIssues_iff_sound`).

The proof follows the check.  Each group of remarks has one lemma that says when the group
passes: listed commands (`listRemarks_spec`) and phases (`phasesRemarks_spec`), where the
registry that goes through both is replaced by the list of names it was given; the cycles
(`passes_cycleRemarks_iff`), by completeness of the search; and the names in records
(`passes_mismatches_iff`).  An issue is an error only because of these groups, since the
other remarks of the check advise.

The graph of dependencies is written in names, and in it a name means one phase only
because a loaded manifest holds no key twice (`wellKeyed_of_loadRecord`).
-/

namespace SkillLint.Workflow

open Relation

/-! ## A manifest without faults -/

/-- Phase `a` depends on phase `b`: one of its dependencies names `b`, which is a phase.
An empty text names no phase. -/
def PhaseDependsOn (phases : Mapping) (a b : String) : Prop :=
  (∃ phase, (a, phase) ∈ mappingPhases phases.entries ∧
    ∃ dependency ∈ phase.mappings "depends_on", dependency.text "phase" = b) ∧
  b ≠ "" ∧ b ∈ phases.keys

/-- The file of a listed command, if one is named, exists. -/
def DefinitionExists (w : Workflow) (tree : FileTree) (entry : Mapping) : Prop :=
  entry.text "definition" ≠ "" → tree.pathExists (w.resolve (entry.text "definition")) = true

/-- If the file of a listed command holds a record that is not empty, the record gives the
command the same name. -/
def DefinitionAgrees (w : Workflow) (tree : FileTree) (entry : Mapping) : Prop :=
  entry.text "definition" ≠ "" → ∀ record,
    tree.isFile (w.resolve (entry.text "definition")) = true →
    w.loadRecord tree (w.resolve (entry.text "definition")) = .ok record →
    record.isEmpty = false → record.text "command" = entry.text "command"

/-- **A manifest without faults.** -/
structure ManifestSound (w : Workflow) (tree : FileTree) (manifest phases : Mapping) : Prop where
  /-- The manifest has phases. -/
  declared : manifest.get? "phases" = some (.map phases.entries)
  nonempty : phases.entries ≠ []
  /-- Every phase is a mapping. -/
  shaped : ∀ e ∈ phases.entries, e.2.asMap?.isSome = true
  /-- The description of a phase, if there is one, exists. -/
  described : ∀ p ∈ mappingPhases phases.entries, p.2.text "description" ≠ "" →
    tree.pathExists (w.resolve (p.2.text "description")) = true
  /-- A phase depends on phases only. -/
  resolved : ∀ p ∈ mappingPhases phases.entries, ∀ d ∈ p.2.mappings "depends_on",
    d.text "phase" = "" ∨ d.text "phase" ∈ phases.keys
  /-- No phase depends on itself. -/
  acyclic : ∀ a, ¬ TransGen (PhaseDependsOn phases) a a
  /-- No command is listed twice. -/
  distinct : (((listedCommands manifest phases).map (·.text "command")).filter (· ≠ "")).Nodup
  defined : ∀ e ∈ listedCommands manifest phases, DefinitionExists w tree e
  agreeing : ∀ e ∈ listedCommands manifest phases, DefinitionAgrees w tree e

variable {w : Workflow} {tree : FileTree} {manifest phases : Mapping}

/-! ## Listed commands -/

/-- The names of listed commands. -/
def commandNames (entries : List Mapping) : List String := entries.map (·.text "command")

theorem commandNames_append (a b : List Mapping) :
    commandNames (a ++ b) = commandNames a ++ commandNames b :=
  List.map_append

/-- A listed command passes if it is not a repetition and its file exists. -/
theorem passes_listedRemarks {label : String} {entry : Mapping} {r : CommandRegistry} :
    Passes (listedRemarks w tree label entry r).1 ↔
      (r.register (entry.text "command")).1 = none ∧ DefinitionExists w tree entry := by
  simp only [listedRemarks, passes_append, passes_map_iff (f := blocking) (fun _ => rfl),
    Option.toList_eq_nil_iff, passes_ite_blocking, DefinitionExists]
  simp

/-- **Listed commands pass** if the registry stays silent and their files exist.  The
registry goes on as if only their names had been listed. -/
theorem listRemarks_spec (label : String) : ∀ (entries : List Mapping) (r : CommandRegistry),
    (listRemarks w tree label entries r).2 = r.registerAll (commandNames entries) ∧
    (Passes (listRemarks w tree label entries r).1 ↔
      r.messages (commandNames entries) = [] ∧ ∀ e ∈ entries, DefinitionExists w tree e)
  | [], r => by simp [listRemarks, commandNames, CommandRegistry.registerAll,
      CommandRegistry.messages]
  | entry :: rest, r => by
      obtain ⟨hregistry, hpasses⟩ :=
        listRemarks_spec label rest (r.register (entry.text "command")).2
      refine ⟨hregistry, ?_⟩
      have hsplit : Passes (listRemarks w tree label (entry :: rest) r).1 ↔
          Passes (listedRemarks w tree label entry r).1 ∧
            Passes (listRemarks w tree label rest (r.register (entry.text "command")).2).1 :=
        passes_append
      rw [hsplit, passes_listedRemarks, hpasses, List.forall_mem_cons]
      show _ ↔ (r.register _).1.toList ++ _ = [] ∧ _
      rw [List.append_eq_nil_iff, Option.toList_eq_nil_iff]
      exact and_and_and_comm

/-! ## Phases -/

theorem passes_dependencyRemarks {name : String} {dependency : Mapping} :
    Passes (dependencyRemarks phases name dependency) ↔
      dependency.text "phase" = "" ∨ dependency.text "phase" ∈ phases.keys := by
  simp only [dependencyRemarks, passes_append, passes_ite_blocking, passes_ite_advisory, and_true]
  rw [← Mapping.contains_iff_mem_keys]
  by_cases h : dependency.text "phase" = "" <;> simp [h]

/-- What a phase says about itself holds: its description, if there is one, exists, and it
depends on phases only. -/
def PhaseSound (w : Workflow) (tree : FileTree) (phases phase : Mapping) : Prop :=
  (phase.text "description" ≠ "" →
    tree.pathExists (w.resolve (phase.text "description")) = true) ∧
  ∀ d ∈ phase.mappings "depends_on", d.text "phase" = "" ∨ d.text "phase" ∈ phases.keys

theorem passes_phaseShapeRemarks {name : String} {phase : Mapping} :
    Passes (phaseShapeRemarks w tree phases name phase) ↔ PhaseSound w tree phases phase := by
  simp only [phaseShapeRemarks, passes_append, passes_ite_blocking, passes_flatMap,
    passes_dependencyRemarks, PhaseSound]
  simp

theorem mappingPhases_cons_of_none {name : String} {value : Value} (h : value.asMap? = none)
    (rest : PhaseEntries) : mappingPhases ((name, value) :: rest) = mappingPhases rest := by
  simp [mappingPhases, h]

theorem mappingPhases_cons_of_some {name : String} {value : Value} {phase : Mapping}
    (h : value.asMap? = some phase) (rest : PhaseEntries) :
    mappingPhases ((name, value) :: rest) = (name, phase) :: mappingPhases rest := by
  simp [mappingPhases, h]

/-- The commands that phases list. -/
def phaseCommands (entries : PhaseEntries) : List Mapping :=
  (mappingPhases entries).flatMap fun p => p.2.mappings "commands"

theorem phaseCommands_cons_of_none {name : String} {value : Value} (h : value.asMap? = none)
    (rest : PhaseEntries) : phaseCommands ((name, value) :: rest) = phaseCommands rest := by
  rw [phaseCommands, mappingPhases_cons_of_none h]
  rfl

theorem phaseCommands_cons_of_some {name : String} {value : Value} {phase : Mapping}
    (h : value.asMap? = some phase) (rest : PhaseEntries) :
    phaseCommands ((name, value) :: rest) = phase.mappings "commands" ++ phaseCommands rest := by
  rw [phaseCommands, mappingPhases_cons_of_some h]
  rfl

/-- A phase that is a mapping is judged itself, then its commands, and then the phases after
it, with these commands listed. -/
theorem phasesRemarks_cons {name : String} {value : Value} {phase : Mapping}
    (h : value.asMap? = some phase) (rest : PhaseEntries) (r : CommandRegistry) :
    phasesRemarks w tree phases ((name, value) :: rest) r =
      let listed := listRemarks w tree "Command" (phase.mappings "commands") r
      let others := phasesRemarks w tree phases rest listed.2
      ((phaseShapeRemarks w tree phases name phase ++ listed.1) ++ others.1, others.2) := by
  simp [phasesRemarks, h]

/-- **Phases pass** if they are mappings, hold what they say, and the commands they list
pass.  The registry goes on as if only the names of these commands had been listed. -/
theorem phasesRemarks_spec (phases : Mapping) : ∀ (entries : PhaseEntries) (r : CommandRegistry),
    (phasesRemarks w tree phases entries r).2 =
      r.registerAll (commandNames (phaseCommands entries)) ∧
    (Passes (phasesRemarks w tree phases entries r).1 ↔
      (∀ e ∈ entries, e.2.asMap?.isSome = true) ∧
      (∀ p ∈ mappingPhases entries, PhaseSound w tree phases p.2) ∧
      r.messages (commandNames (phaseCommands entries)) = [] ∧
      ∀ e ∈ phaseCommands entries, DefinitionExists w tree e)
  | [], r => by simp [phasesRemarks, phaseCommands, mappingPhases, commandNames,
      CommandRegistry.registerAll, CommandRegistry.messages]
  | (name, value) :: rest, r => by
      cases hvalue : value.asMap? with
      | none =>
          -- the remark blocks, and no command is listed
          obtain ⟨hregistry, -⟩ := phasesRemarks_spec phases rest r
          rw [phaseCommands_cons_of_none hvalue, ← hregistry]
          simp [phasesRemarks, hvalue]
      | some phase =>
          obtain ⟨hlist, hpasses⟩ :=
            @listRemarks_spec w tree "Command" (phase.mappings "commands") r
          obtain ⟨hregistry, hrest⟩ := phasesRemarks_spec phases rest
            (r.registerAll (commandNames (phase.mappings "commands")))
          rw [phasesRemarks_cons hvalue, phaseCommands_cons_of_some hvalue,
            mappingPhases_cons_of_some hvalue]
          simp only [hlist]
          refine ⟨?_, ?_⟩
          · rw [hregistry, commandNames_append, CommandRegistry.registerAll_append]
          · rw [passes_append, passes_append, passes_phaseShapeRemarks, hpasses, hrest,
              List.forall_mem_cons, List.forall_mem_cons, List.forall_mem_append,
              commandNames_append, CommandRegistry.messages_append, List.append_eq_nil_iff, hvalue]
            simp only [Option.isSome_some, true_and]
            tauto

/-! ## Dependencies -/

theorem mem_mappingPhases {entries : PhaseEntries} {name : String} {phase : Mapping} :
    (name, phase) ∈ mappingPhases entries ↔
      ∃ value, (name, value) ∈ entries ∧ value.asMap? = some phase := by
  simp only [mappingPhases, List.mem_filterMap, Option.map_eq_some_iff, Prod.mk.injEq]
  constructor
  · rintro ⟨⟨name', value⟩, hmem, phase', hvalue, rfl, rfl⟩
    exact ⟨value, hmem, hvalue⟩
  · rintro ⟨value, hmem, hvalue⟩
    exact ⟨(name, value), hmem, phase, hvalue, rfl, rfl⟩

/-- The names of the graph are the names of the phases that are mappings. -/
theorem names_dependencyGraph (phases : Mapping) :
    (dependencyGraph phases).map Prod.fst = (mappingPhases phases.entries).map Prod.fst := by
  rw [dependencyGraph, List.map_map]
  rfl

theorem names_mappingPhases_sublist : ∀ entries : PhaseEntries,
    ((mappingPhases entries).map Prod.fst).Sublist (entries.map Prod.fst)
  | [] => .slnil
  | (name, value) :: rest => by
      have ih := names_mappingPhases_sublist rest
      cases hvalue : value.asMap? with
      | none =>
          rw [mappingPhases_cons_of_none hvalue]
          exact ih.cons name
      | some phase =>
          rw [mappingPhases_cons_of_some hvalue]
          exact ih.cons_cons name

/-- Where all phases are mappings, the graph is the dependence between phases. -/
theorem dependsOn_dependencyGraph_iff (hshaped : ∀ e ∈ phases.entries, e.2.asMap?.isSome = true)
    {a b : String} : (dependencyGraph phases).DependsOn a b ↔ PhaseDependsOn phases a b := by
  have hname : b ∈ (dependencyGraph phases).map Prod.fst ↔ b ∈ phases.keys := by
    rw [names_dependencyGraph]
    refine ⟨fun h => (names_mappingPhases_sublist phases.entries).subset h, fun h => ?_⟩
    obtain ⟨⟨name, value⟩, hmem, rfl⟩ := List.mem_map.mp h
    obtain ⟨phase, hphase⟩ := Option.isSome_iff_exists.mp (hshaped _ hmem)
    exact List.mem_map_of_mem (mem_mappingPhases.mpr ⟨value, hmem, hphase⟩)
  have htargets : (∃ targets, (a, targets) ∈ dependencyGraph phases ∧ b ∈ targets) ↔
      (∃ phase, (a, phase) ∈ mappingPhases phases.entries ∧
        ∃ dependency ∈ phase.mappings "depends_on", dependency.text "phase" = b) ∧ b ≠ "" := by
    simp only [dependencyGraph, List.mem_map, Prod.mk.injEq]
    constructor
    · rintro ⟨_, ⟨⟨a', phase⟩, hmem, rfl, rfl⟩, hb⟩
      obtain ⟨hb, hne⟩ := List.mem_filter.mp hb
      exact ⟨⟨phase, hmem, List.mem_map.mp hb⟩, of_decide_eq_true hne⟩
    · rintro ⟨⟨phase, hmem, hb⟩, hne⟩
      exact ⟨_, ⟨(a, phase), hmem, rfl, rfl⟩,
        List.mem_filter.mpr ⟨List.mem_map.mpr hb, decide_eq_true hne⟩⟩
  rw [DependencyGraph.DependsOn, htargets, hname, and_assoc]
  rfl

/-- **The dependencies pass** if no phase depends on itself. -/
theorem passes_cycleRemarks_iff (hkeys : phases.keys.Nodup)
    (hshaped : ∀ e ∈ phases.entries, e.2.asMap?.isSome = true) :
    Passes (cycleRemarks phases) ↔ ∀ a, ¬ TransGen (PhaseDependsOn phases) a a := by
  have hnodup : ((dependencyGraph phases).map Prod.fst).Nodup := by
    rw [names_dependencyGraph]
    exact hkeys.sublist (names_mappingPhases_sublist phases.entries)
  have hrel : (dependencyGraph phases).DependsOn = PhaseDependsOn phases :=
    funext fun a => funext fun b => propext (dependsOn_dependencyGraph_iff hshaped)
  rw [cycleRemarks, passes_map_iff (fun _ => rfl), DependencyGraph.findCycles_eq_nil_iff,
    DependencyGraph.acyclic_iff_of_nodup hnodup, hrel]

/-! ## Names in records -/

theorem mismatch?_eq_none_iff {entry : Mapping} :
    mismatch? w tree entry = none ↔ DefinitionAgrees w tree entry := by
  simp only [mismatch?, DefinitionAgrees]
  by_cases hempty : entry.text "definition" = ""
  · simp [hempty]
  by_cases hfile : tree.isFile (w.resolve (entry.text "definition")) = true
  · cases hload : w.loadRecord tree (w.resolve (entry.text "definition")) with
    | error reason => simp
    | ok record =>
      by_cases hrecord : record.isEmpty = true
      · simp [hrecord]
      · by_cases hname : record.text "command" = entry.text "command"
        · simp [hname]
        · simp [hempty, hfile, hrecord, hname]
  · simp [hfile]

theorem passes_mismatches_iff {entries : List Mapping} :
    Passes (entries.filterMap (mismatch? w tree)) ↔ ∀ e ∈ entries, DefinitionAgrees w tree e := by
  have hblocks : ∀ {e r}, mismatch? w tree e = some r → r.1 = .error := by
    intro e r h
    simp only [mismatch?] at h
    split at h
    · cases h
    · split at h
      · cases h
      · split at h <;> cases h
        rfl
  constructor
  · intro h e he
    rw [← mismatch?_eq_none_iff]
    cases hr : mismatch? w tree e with
    | none => rfl
    | some r => exact absurd (hblocks hr) (h r (List.mem_filterMap.mpr ⟨e, he, hr⟩))
  · intro h r hr
    obtain ⟨e, he, hsome⟩ := List.mem_filterMap.mp hr
    rw [mismatch?_eq_none_iff.mpr (h e he)] at hsome
    cases hsome

/-! ## The manifest -/

theorem phasesOf_eq_ok_iff : phasesOf manifest = .ok phases ↔
    manifest.get? "phases" = some (.map phases.entries) ∧ phases.entries ≠ [] := by
  rw [phasesOf, Mapping.present?]
  cases manifest.get? "phases" with
  | none => simp
  | some v =>
    cases v with
    | null => simp [Option.filter, Value.isNull]
    | bool _ | int _ | float _ | string _ => simp [Option.filter, Value.isNull]
    | list items => cases items <;> simp [Option.filter, Value.isNull]
    | map entries =>
      cases entries with
      | nil =>
        simp only [Option.filter, Value.isNull]
        exact ⟨fun h => (nomatch h),
          fun ⟨h, hne⟩ => absurd (Value.map.inj (Option.some.inj h)).symm hne⟩
      | cons e rest =>
        obtain ⟨entries⟩ := phases
        simp only [Option.filter, Value.isNull]
        constructor
        · rintro ⟨⟩
          exact ⟨rfl, List.cons_ne_nil _ _⟩
        · rintro ⟨h, -⟩
          cases h
          rfl

/-- The commands listed by phases and utilities are distinct if the registry stays silent
over both. -/
theorem messages_listedCommands_iff :
    CommandRegistry.empty.messages (commandNames (phaseCommands phases.entries)) = [] ∧
      (CommandRegistry.empty.registerAll (commandNames (phaseCommands phases.entries))).messages
        (commandNames (manifest.mappings "utilities")) = [] ↔
      ((commandNames (listedCommands manifest phases)).filter (· ≠ "")).Nodup := by
  rw [← List.append_eq_nil_iff, ← CommandRegistry.messages_append, ← commandNames_append,
    CommandRegistry.messages_eq_nil_iff]
  rfl

/-- The remarks about a manifest with phases, in their groups.  The registry after the phases
is the one to which their commands were given. -/
theorem manifestRemarks_of_phases (hphases : phasesOf manifest = .ok phases) :
    manifestRemarks w tree manifest =
      (phasesRemarks w tree phases phases.entries .empty).1 ++
        (listRemarks w tree "Utility" (manifest.mappings "utilities")
          (CommandRegistry.empty.registerAll (commandNames (phaseCommands phases.entries)))).1 ++
        cycleRemarks phases ++ (listedCommands manifest phases).filterMap (mismatch? w tree) := by
  rw [manifestRemarks, hphases, ← (phasesRemarks_spec phases phases.entries .empty).1]

/-- **A manifest with phases passes** group by group. -/
theorem passes_manifestRemarks_of_phases (hphases : phasesOf manifest = .ok phases)
    (hnodup : phases.keys.Nodup) :
    Passes (manifestRemarks w tree manifest) ↔ ManifestSound w tree manifest phases := by
  obtain ⟨hdeclared, hnonempty⟩ := phasesOf_eq_ok_iff.mp hphases
  have hdefined : (∀ e ∈ listedCommands manifest phases, DefinitionExists w tree e) ↔
      (∀ e ∈ phaseCommands phases.entries, DefinitionExists w tree e) ∧
        ∀ e ∈ manifest.mappings "utilities", DefinitionExists w tree e :=
    List.forall_mem_append
  rw [manifestRemarks_of_phases hphases, passes_append, passes_append, passes_append,
    (phasesRemarks_spec phases phases.entries .empty).2, (listRemarks_spec "Utility" _ _).2,
    passes_mismatches_iff]
  -- the graph is judged in names only once all phases are known to be mappings
  constructor
  · rintro ⟨⟨⟨⟨hshaped, hsound, hfirst, hdefs⟩, hsecond, hdefs'⟩, hcycles⟩, hagree⟩
    exact {
      declared := hdeclared
      nonempty := hnonempty
      shaped := hshaped
      described := fun p hp => (hsound p hp).1
      resolved := fun p hp => (hsound p hp).2
      acyclic := (passes_cycleRemarks_iff hnodup hshaped).mp hcycles
      distinct := messages_listedCommands_iff.mp ⟨hfirst, hsecond⟩
      defined := hdefined.mpr ⟨hdefs, hdefs'⟩
      agreeing := hagree }
  · intro h
    obtain ⟨hfirst, hsecond⟩ := messages_listedCommands_iff.mpr h.distinct
    obtain ⟨hdefs, hdefs'⟩ := hdefined.mp h.defined
    have hcycles := (passes_cycleRemarks_iff hnodup h.shaped).mpr h.acyclic
    exact ⟨⟨⟨⟨h.shaped, fun p hp => ⟨h.described p hp, h.resolved p hp⟩, hfirst, hdefs⟩,
      hsecond, hdefs'⟩, hcycles⟩, h.agreeing⟩

/-- **A loaded manifest passes if and only if it is without faults.** -/
theorem passes_manifestRemarks_iff (hkeys : manifest.WellKeyed) :
    Passes (manifestRemarks w tree manifest) ↔ ∃ phases, ManifestSound w tree manifest phases := by
  have hphasesOf {phases} (h : ManifestSound w tree manifest phases) :
      phasesOf manifest = .ok phases := phasesOf_eq_ok_iff.mpr ⟨h.declared, h.nonempty⟩
  cases hphases : phasesOf manifest with
  | error message =>
    have hblocked : ¬ Passes (manifestRemarks w tree manifest) := by
      rw [manifestRemarks, hphases]
      exact not_passes_blocking
    refine ⟨fun h => absurd h hblocked, ?_⟩
    rintro ⟨phases, h⟩
    rw [hphasesOf h] at hphases
    cases hphases
  | ok phases =>
    have hdeclared := Mapping.mem_of_get? (phasesOf_eq_ok_iff.mp hphases).1
    have hnodup : phases.keys.Nodup := Mapping.WellKeyed.nodup (hkeys.value_of_mem hdeclared)
    rw [passes_manifestRemarks_of_phases hphases hnodup]
    refine ⟨fun h => ⟨phases, h⟩, ?_⟩
    rintro ⟨phases', h⟩
    obtain rfl : phases = phases' := Except.ok.inj (hphases.symm.trans (hphasesOf h))
    exact h

theorem passes_manifestErrorRemark (reason : RecordError) :
    ¬ Passes [manifestErrorRemark reason] := by
  cases reason <;> exact not_passes_blocking

/-- No issue about the manifest is an error if and only if it loads and passes. -/
theorem noErrors_manifestIssues_iff : NoErrors (w.manifestIssues tree) ↔
    ∃ manifest, w.loadRecord tree w.manifest = .ok manifest ∧
      Passes (manifestRemarks w tree manifest) := by
  cases hload : w.loadRecord tree w.manifest with
  | ok manifest =>
    have hexists := pathExists_of_isFile (isFile_of_loadRecord hload)
    simp only [manifestIssues, hexists, hload, Bool.not_true, Bool.false_eq_true, if_false,
      noErrors_map_remarks]
    refine ⟨fun h => ⟨manifest, rfl, h⟩, ?_⟩
    rintro ⟨_, hm, h⟩
    cases hm
    exact h
  | error reason =>
    constructor
    · intro h
      simp only [manifestIssues, hload] at h
      split at h
      · exact absurd (h _ List.mem_cons_self) (by simp [Issue.isError])
      · exact absurd (noErrors_map_remarks.mp h) (passes_manifestErrorRemark reason)
    · rintro ⟨_, hm, -⟩
      cases hm

/-- **The verdict on a manifest that loads**: no issue about it is an error if and only if
it is without faults. -/
theorem noErrors_manifestIssues_iff_sound
    (hload : w.loadRecord tree w.manifest = .ok manifest) :
    NoErrors (w.manifestIssues tree) ↔ ∃ phases, ManifestSound w tree manifest phases := by
  rw [← passes_manifestRemarks_iff (wellKeyed_of_loadRecord hload), noErrors_manifestIssues_iff]
  refine ⟨fun ⟨m, hm, h⟩ => ?_, fun h => ⟨manifest, hload, h⟩⟩
  cases hload.symm.trans hm
  exact h

/-! ## A sample -/

/-- A workflow at the working directory, its parts in their usual places. -/
def sampleWorkflow : Workflow := ofProject ⟨""⟩ .default .full

/-- Two phases, one depending on the other, and a listed command with its record. -/
def sampleTree : FileTree :=
  ((FileTree.empty []).writeFile sampleWorkflow.manifest
    ("phases:\n a:\n  depends_on:\n  - phase: b\n b:\n  commands:\n" ++
      "  - command: c\n    definition: d\n").toUTF8).writeFile ⟨"d"⟩ "command: c".toUTF8

theorem noErrors_manifestIssues_sample : NoErrors (sampleWorkflow.manifestIssues sampleTree) := by
  decide +kernel

theorem manifestSound_sample : ∃ manifest,
    sampleWorkflow.loadRecord sampleTree sampleWorkflow.manifest = .ok manifest ∧
      ∃ phases, ManifestSound sampleWorkflow sampleTree manifest phases := by
  obtain ⟨manifest, hload, -⟩ := noErrors_manifestIssues_iff.mp noErrors_manifestIssues_sample
  exact ⟨manifest, hload,
    (noErrors_manifestIssues_iff_sound hload).mp noErrors_manifestIssues_sample⟩

end SkillLint.Workflow
