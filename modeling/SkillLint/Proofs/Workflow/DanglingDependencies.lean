import SkillLint.Proofs.Cycles.Dangling
import SkillLint.Proofs.Header.InsertionOrder
import SkillLint.Proofs.Workflow.Findings
import SkillLint.Text.Search

/-!
# Dependencies on phases that are not there

A dependency dangles if it names something that is no phase (`Dangles`).  The check of a manifest
reports every such dependency, one by one, and then searches the graph of dependencies for cycles
with all of them in it.

That does no harm: a name that is no phase is no name of the graph either, so the search passes
over it.  **The cycles of a manifest are those of the manifest without its dangling dependencies**
(`dangling_dependencies`).  `withoutDangling` takes these out of the lists in which they stand and
leaves everything else as it is; on the side of the graph this takes out names that are not
declared (`dangling_dependencyGraph`).
-/

namespace SkillLint.Workflow

open ManifestFinding SkillLint.Text

variable {w : Workflow} {tree : FileTree} {manifest phases phase : Mapping} {listing : Listing}

/-- The dependency names something that is no phase. -/
def Dangles (phases dependency : Mapping) : Prop :=
  dependency.text "phase" ≠ "" ∧ dependency.text "phase" ∉ phases.keys

instance (phases dependency : Mapping) : Decidable (Dangles phases dependency) :=
  inferInstanceAs (Decidable (_ ∧ _))

/-- The dangling dependencies of all phases, each with the name of its phase. -/
def danglingDependencies (phases : Mapping) : List (String × Mapping) :=
  (mappingPhases phases.entries).flatMap fun (name, phase) =>
    ((phase.mappings "depends_on").filter fun dependency => Dangles phases dependency).map
      fun dependency => (name, dependency)

/-- The item of a list of dependencies is something else than a dangling dependency. -/
def staysIn (phases : Mapping) (item : Value) : Bool :=
  match item.asMap? with
  | none => true
  | some dependency => ¬ Dangles phases dependency

/-- A phase without its dangling dependencies. -/
def phaseWithoutDangling (phases phase : Mapping) : Mapping :=
  match phase.get? "depends_on" with
  | some (.list items) => phase.insert "depends_on" (.list (items.filter (staysIn phases)))
  | _ => phase

/-- **Phases without their dangling dependencies.** -/
def withoutDangling (phases : Mapping) : Mapping where
  entries := phases.entries.map fun (name, value) =>
    match value with
    | .map entries => (name, .map (phaseWithoutDangling phases ⟨entries⟩).entries)
    | other => (name, other)

/-- The issue says that phases depend on one another.  No other issue about a manifest begins
so. -/
def isCycleIssue (i : Issue) : Bool := startsWith "DAG cycle detected: ".toList i.message.toList

theorem isCycleIssue_findingIssue (w : Workflow) (f : ManifestFinding) :
    isCycleIssue (w.findingIssue f) = f.isCyclic := by
  have hopening : isCycleIssue (w.findingIssue f) = true ↔ (cyclic []).opening = f.opening :=
    startsWith_opening_iff f (cyclic [])
  rw [Bool.eq_iff_iff, hopening]
  cases f with
  | unrecorded listing command definition =>
      show "DAG cycle detected: " = listing.label ++ " '" ↔ false = true
      cases listing <;> decide
  | _ => simp [opening, isCyclic]

/-! ## Taking dangling dependencies out -/

theorem mappings_insert_list (m : Mapping) (key : String) (items : List Value) :
    (m.insert key (.list items)).mappings key = items.filterMap Value.asMap? := by
  rw [Mapping.mappings, Mapping.get?_insert, if_pos rfl]
  rfl

/-- What stays of the dependencies of a phase. -/
theorem mappings_phaseWithoutDangling (phases phase : Mapping) :
    (phaseWithoutDangling phases phase).mappings "depends_on" =
      (phase.mappings "depends_on").filter fun dependency => ¬ Dangles phases dependency := by
  rw [phaseWithoutDangling]
  split
  · rename_i items hitems
    rw [mappings_insert_list, Mapping.mappings, hitems]
    show _ = (items.filterMap Value.asMap?).filter _
    rw [List.filterMap_filter, List.filter_filterMap]
    refine List.filterMap_congr fun item _ => ?_
    cases hitem : item.asMap? with
    | none => simp [staysIn, hitem]
    | some dependency =>
      by_cases h : Dangles phases dependency <;> simp [staysIn, hitem, h, Option.filter]
  · -- dependencies that are no list are none, and stay
    rename_i hnolist
    have hnone : phase.mappings "depends_on" = [] := by
      rw [Mapping.mappings]
      cases hvalue : phase.get? "depends_on" with
      | none => rfl
      | some value =>
        cases value with
        | list items => exact absurd hvalue (hnolist items)
        | _ => rfl
    rw [hnone]
    rfl

theorem keys_withoutDangling (phases : Mapping) : (withoutDangling phases).keys = phases.keys := by
  rw [Mapping.keys, withoutDangling, List.map_map]
  refine List.map_congr_left fun e _ => ?_
  obtain ⟨name, value⟩ := e
  cases value <;> rfl

/-- The phases stay, each without its dangling dependencies. -/
theorem mappingPhases_withoutDangling (phases : Mapping) :
    mappingPhases (withoutDangling phases).entries =
      (mappingPhases phases.entries).map fun p => (p.1, phaseWithoutDangling phases p.2) := by
  rw [mappingPhases, mappingPhases, withoutDangling, List.filterMap_map, List.map_filterMap]
  refine List.filterMap_congr fun e _ => ?_
  obtain ⟨name, value⟩ := e
  cases value <;> rfl

theorem dangles_withoutDangling_iff (phases dependency : Mapping) :
    Dangles (withoutDangling phases) dependency ↔ Dangles phases dependency := by
  rw [Dangles, Dangles, keys_withoutDangling]

/-- Nothing dangles any more, since the names of the phases stay. -/
theorem danglingDependencies_withoutDangling (phases : Mapping) :
    danglingDependencies (withoutDangling phases) = [] := by
  rw [danglingDependencies, mappingPhases_withoutDangling, List.flatMap_map,
    List.flatMap_eq_nil_iff]
  intro p _
  dsimp only
  rw [List.map_eq_nil_iff, List.filter_eq_nil_iff, mappings_phaseWithoutDangling]
  intro dependency hmem
  have hstays : ¬ Dangles phases dependency := by simpa using (List.mem_filter.mp hmem).2
  rwa [decide_eq_true_iff, dangles_withoutDangling_iff]

/-! ## The graph of dependencies -/

/-- Of the targets of a phase, those that dangle are taken out. -/
theorem inserted_targets {names : List String} (hnames : ∀ name ∈ names, name ∈ phases.keys) :
    ∀ dependencies : List Mapping, DependencyGraph.Inserted names
      (((dependencies.filter fun d => ¬ Dangles phases d).map (·.text "phase")).filter (· ≠ ""))
      ((dependencies.map (·.text "phase")).filter (· ≠ ""))
  | [] => .nil
  | dependency :: rest => by
      have ih := inserted_targets hnames rest
      by_cases hdangles : Dangles phases dependency
      · -- a name of the graph is one of a phase, so this name is not declared
        rw [List.filter_cons_of_neg (by simpa using hdangles), List.map_cons,
          List.filter_cons_of_pos (by simpa using hdangles.1)]
        exact .insert (fun hmem => hdangles.2 (hnames _ hmem)) ih
      · rw [List.filter_cons_of_pos (by simpa using hdangles), List.map_cons, List.map_cons]
        by_cases hempty : dependency.text "phase" = ""
        · rwa [List.filter_cons_of_neg (by simpa using hempty),
            List.filter_cons_of_neg (by simpa using hempty)]
        · rw [List.filter_cons_of_pos (by simpa using hempty),
            List.filter_cons_of_pos (by simpa using hempty)]
          exact .keep ih

/-- **The graph of dependencies is that of the phases without their dangling dependencies**, with
dangling edges. -/
theorem dangling_dependencyGraph (phases : Mapping) :
    (dependencyGraph (withoutDangling phases)).Dangling (dependencyGraph phases) := by
  have hnames : (dependencyGraph (withoutDangling phases)).map Prod.fst =
      (mappingPhases phases.entries).map Prod.fst := by
    rw [names_dependencyGraph, mappingPhases_withoutDangling, List.map_map]
    rfl
  have hkeys : ∀ name ∈ (mappingPhases phases.entries).map Prod.fst, name ∈ phases.keys :=
    fun name hname => (names_mappingPhases_sublist phases.entries).subset hname
  rw [DependencyGraph.Dangling, hnames, dependencyGraph, dependencyGraph,
    mappingPhases_withoutDangling, List.map_map, List.forall₂_map_left_iff,
    List.forall₂_map_right_iff, List.forall₂_same]
  intro p _
  refine ⟨rfl, ?_⟩
  show DependencyGraph.Inserted _
    ((((phaseWithoutDangling phases p.2).mappings "depends_on").map (·.text "phase")).filter _) _
  rw [mappings_phaseWithoutDangling]
  exact inserted_targets hkeys _

theorem findCycles_withoutDangling (phases : Mapping) :
    (dependencyGraph (withoutDangling phases)).findCycles = (dependencyGraph phases).findCycles :=
  (DependencyGraph.findCycles_of_dangling (dangling_dependencyGraph phases)).symm

/-! ## Dangling dependencies and cycles among the findings -/

/-- Of a kind of findings that listed commands do not give, the phases give what each of them
says of itself. -/
theorem filter_phasesFindings {p : ManifestFinding → Bool}
    {own : String → Mapping → List ManifestFinding}
    (hshapeless : ∀ name, p (shapeless name) = false)
    (hown : ∀ name phase, (phaseShapeFindings w tree phases name phase).filter p = own name phase)
    (hlists : ∀ entries earlier, (listFindings w tree .phase earlier entries).filter p = []) :
    ∀ (entries : PhaseEntries) (earlier : List String),
      (phasesFindings w tree phases earlier entries).filter p =
        (mappingPhases entries).flatMap fun q => own q.1 q.2
  | [], _ => rfl
  | (name, value) :: rest, earlier => by
      have ih := filter_phasesFindings hshapeless hown hlists rest
      rw [phasesFindings]
      cases hvalue : value.asMap? with
      | none =>
          dsimp only
          rw [mappingPhases_cons_of_none hvalue,
            List.filter_cons_of_neg (by rw [hshapeless]; exact Bool.false_ne_true), ih]
      | some phase =>
          dsimp only
          rw [mappingPhases_cons_of_some hvalue, List.flatMap_cons, List.filter_append,
            List.filter_append, hown, hlists, ih, List.append_nil]

theorem filter_isDangling_dependencyFindings (name : String) (dependency : Mapping) :
    (dependencyFindings phases name dependency).filter isDangling =
      if Dangles phases dependency then [dangling name (dependency.text "phase")] else [] := by
  rw [dependencyFindings, List.filter_append, filter_ite_of_pos rfl, filter_ite_of_neg rfl,
    List.append_nil]
  refine if_congr ?_ rfl rfl
  rw [Dangles, ← Mapping.contains_iff_mem_keys]
  simp

/-- A phase says of itself which of its dependencies dangle. -/
theorem filter_isDangling_phaseShapeFindings (name : String) (phase : Mapping) :
    (phaseShapeFindings w tree phases name phase).filter isDangling =
      ((phase.mappings "depends_on").filter fun d => Dangles phases d).map
        fun d => dangling name (d.text "phase") := by
  rw [phaseShapeFindings, List.filter_append, filter_ite_of_neg rfl, List.nil_append,
    List.filter_flatMap]
  simp only [filter_isDangling_dependencyFindings]
  induction phase.mappings "depends_on" with
  | nil => rfl
  | cons d rest ih => by_cases h : Dangles phases d <;> simp [h, ih]

/-- **The dangling dependencies among the findings** are all there are, each once. -/
theorem filter_isDangling_manifestFindings :
    (manifestFindings w tree manifest phases).filter isDangling =
      (danglingDependencies phases).map fun (name, dependency) =>
        dangling name (dependency.text "phase") := by
  have hlists : ∀ listing entries earlier,
      (listFindings w tree listing earlier entries).filter isDangling = [] :=
    fun _ => filter_listFindings_eq_nil (fun _ _ => rfl) fun _ => rfl
  rw [manifestFindings, List.filter_append, List.filter_append, List.filter_append, hlists,
    filter_map_of_neg fun _ => rfl, filter_mismatches_of_neg fun _ _ _ => rfl,
    filter_phasesFindings (fun _ => rfl) filter_isDangling_phaseShapeFindings (hlists .phase),
    danglingDependencies, List.map_flatMap]
  simp only [List.append_nil, List.map_map]
  rfl

/-- **The cycles among the findings** are those of the graph. -/
theorem filter_isCyclic_manifestFindings :
    (manifestFindings w tree manifest phases).filter isCyclic =
      (dependencyGraph phases).findCycles.map cyclic := by
  have hlists : ∀ listing entries earlier,
      (listFindings w tree listing earlier entries).filter isCyclic = [] :=
    fun _ => filter_listFindings_eq_nil (fun _ _ => rfl) fun _ => rfl
  have hphases : (phasesFindings w tree phases [] phases.entries).filter isCyclic =
      (mappingPhases phases.entries).flatMap fun _ => [] :=
    filter_phasesFindings (fun _ => rfl)
      (filter_phaseShapeFindings_eq_nil (fun _ _ => rfl) (fun _ _ => rfl) fun _ _ => rfl)
      (hlists .phase) phases.entries []
  rw [manifestFindings, List.filter_append, List.filter_append, List.filter_append, hphases,
    hlists, filter_map_of_pos fun _ => rfl, filter_mismatches_of_neg fun _ _ _ => rfl]
  simp

/-! ## The cycles are those without dangling dependencies -/

/-- **Dangling dependencies have no influence on cycles.**  Names that a graph does not declare
change nothing about the cycles found, wherever and however often they are inserted into lists of
targets.  The check of a manifest with phases reports every dangling dependency with one error, and
its issues about cycles are those of the manifest without these dependencies, in any tree. -/
theorem dangling_dependencies :
    (∀ g g' : DependencyGraph, g.Dangling g' → g'.findCycles = g.findCycles) ∧
    ∀ (w : Workflow) (tree : FileTree) (manifest phases : Mapping),
      w.loadRecord tree w.manifest = .ok manifest →
      manifest.get? "phases" = some (.map phases.entries) → phases.entries ≠ [] →
        w.manifestIssues tree = w.loadedIssues tree manifest ∧
        w.loadedIssues tree manifest =
          (w.manifestFindings tree manifest phases).map w.findingIssue ∧
        (w.manifestFindings tree manifest phases).filter isDangling =
          ((danglingDependencies phases).map fun (name, dependency) =>
            dangling name (dependency.text "phase")) ∧
        (∀ name target, w.findingIssue (dangling name target) =
          ⟨manifestScope, manifestCheck, .error,
            "Phase '" ++ name ++ "' depends on undefined phase: '" ++ target ++ "'",
            some (w.relative w.manifest)⟩) ∧
        ∀ tree', (w.loadedIssues tree' (manifest.insert "phases"
            (.map (withoutDangling phases).entries))).filter isCycleIssue =
          (w.loadedIssues tree manifest).filter isCycleIssue := by
  refine ⟨fun _ _ h => DependencyGraph.findCycles_of_dangling h,
    fun w tree manifest phases hload hdeclared hnonempty => ?_⟩
  have hphases : phasesOf manifest = .ok phases := phasesOf_eq_ok_iff.mpr ⟨hdeclared, hnonempty⟩
  refine ⟨manifestIssues_of_load hload, loadedIssues_eq hphases,
    filter_isDangling_manifestFindings, fun _ _ => rfl, fun tree' => ?cycles⟩
  case cycles =>
    have hpruned : phasesOf (manifest.insert "phases" (.map (withoutDangling phases).entries)) =
        .ok (withoutDangling phases) := by
      rw [phasesOf_eq_ok_iff, Mapping.get?_insert, if_pos rfl]
      exact ⟨rfl, fun hnil => hnonempty (List.map_eq_nil_iff.mp hnil)⟩
    have hkind : isCycleIssue ∘ w.findingIssue = isCyclic := funext (isCycleIssue_findingIssue w)
    rw [loadedIssues_eq hpruned, loadedIssues_eq hphases, List.filter_map, List.filter_map, hkind,
      filter_isCyclic_manifestFindings, filter_isCyclic_manifestFindings,
      findCycles_withoutDangling]

/-- A phase that depends on itself, and on something that is no phase before and after that. -/
def tangledTree : FileTree :=
  (FileTree.empty []).writeFile sampleWorkflow.manifest
    ("phases:\n a:\n  depends_on:\n  - phase: x\n  - phase: a\n  - phase: y\n").toUTF8

theorem dangling_dependencies_tangledTree :
    DependencyGraph.findCycles [("a", ["x", "a", "y"])] =
      DependencyGraph.findCycles [("a", ["a"])] ∧
    ∃ manifest phases,
      sampleWorkflow.loadRecord tangledTree sampleWorkflow.manifest = .ok manifest ∧
      manifest.get? "phases" = some (.map phases.entries) ∧ phases.entries ≠ [] ∧
      dependencyGraph phases = [("a", ["x", "a", "y"])] ∧
      dependencyGraph (withoutDangling phases) = [("a", ["a"])] ∧
      (sampleWorkflow.manifestFindings tangledTree manifest phases).filter isDangling =
        [dangling "a" "x", dangling "a" "y"] ∧
      (sampleWorkflow.loadedIssues tangledTree (manifest.insert "phases"
          (.map (withoutDangling phases).entries))).filter isCycleIssue =
        (sampleWorkflow.loadedIssues tangledTree manifest).filter isCycleIssue := by
  have hdangling : DependencyGraph.Dangling [("a", ["a"])] [("a", ["x", "a", "y"])] :=
    .cons ⟨rfl, .insert (by decide) (.keep (.insert (by decide) .nil))⟩ .nil
  have hread : (sampleWorkflow.loadedPhases? tangledTree).map
      (fun loaded => (dependencyGraph loaded.2, dependencyGraph (withoutDangling loaded.2),
        (danglingDependencies loaded.2).map fun d => dangling d.1 (d.2.text "phase"))) =
        some ([("a", ["x", "a", "y"])], [("a", ["a"])], [dangling "a" "x", dangling "a" "y"]) := by
    decide +kernel
  obtain ⟨⟨manifest, phases⟩, hloaded, hgraphs⟩ := Option.map_eq_some_iff.mp hread
  obtain ⟨hgraph, hpruned, htargets⟩ : dependencyGraph phases = _ ∧
      dependencyGraph (withoutDangling phases) = _ ∧ _ = _ := by
    simpa only [Prod.mk.injEq] using hgraphs
  obtain ⟨hload, hphases⟩ := loadedPhases?_eq_some_iff.mp hloaded
  obtain ⟨hdeclared, hnonempty⟩ := phasesOf_eq_ok_iff.mp hphases
  obtain ⟨-, -, hfindings, -, hcycles⟩ := dangling_dependencies.2 sampleWorkflow tangledTree
    manifest phases hload hdeclared hnonempty
  exact ⟨dangling_dependencies.1 _ _ hdangling, manifest, phases, hload, hdeclared, hnonempty,
    hgraph, hpruned, hfindings.trans htargets, hcycles tangledTree⟩

end SkillLint.Workflow
