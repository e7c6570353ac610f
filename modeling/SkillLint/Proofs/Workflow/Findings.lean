import SkillLint.Proofs.Text.Cut
import SkillLint.Proofs.Workflow.ManifestVerdict

/-!
# What the check of a manifest finds

The check of a manifest puts what it finds into words at once, and the words do not always tell
what was found: they quote names and paths, and these may hold any text.  A `ManifestFinding` is
what was found, before it is put into words (`ManifestFinding.remark`).

`manifestFindings` says what there is to find, without the registry that goes through the check: a
listed command is repeated if exactly one of the commands listed before it has its name.  **The
remarks about a manifest are its findings, in words** (`manifestRemarks_eq`), because the registry
tracks the names listed so far.  What is found of one kind is therefore a question about
`manifestFindings` alone, and its answer is put together from the parts of the check: a part that
finds nothing of the kind adds nothing (`filter_ite_of_neg`, `filter_map_of_neg`).  Where the kind
has an opening of its own, the words tell it as well (`startsWith_opening_iff`), since no opening
is the beginning of another one.
-/

namespace SkillLint.Workflow

/-- Where a command is listed. -/
inductive Listing where
  | phase
  | utility
  deriving Repr, DecidableEq

/-- What messages call a command that is listed there. -/
def Listing.label : Listing → String
  | phase => "Command"
  | utility => "Utility"

/-- One thing that the check of a manifest finds. -/
inductive ManifestFinding where
  /-- The phase is no mapping. -/
  | shapeless (phase : String)
  /-- The description of the phase does not exist. -/
  | undescribed (phase description : String)
  /-- The phase depends on something that is no phase. -/
  | dangling (phase target : String)
  /-- The phase depends on another one with a strength that is not known. -/
  | oddStrength (phase strength : String)
  /-- The command is listed for the second time. -/
  | repeated (command : String)
  /-- The file of the record of the command does not exist. -/
  | unrecorded (listing : Listing) (command definition : String)
  /-- Phases depend on one another, around the cycle. -/
  | cyclic (cycle : List String)
  /-- The record of the command declares another name. -/
  | mismatched (command declared definition : String)
  deriving Repr, DecidableEq

namespace ManifestFinding

/-- The finding in words. -/
def remark : ManifestFinding → Remark
  | shapeless phase => blocking ("Phase '" ++ phase ++ "' must be a mapping")
  | undescribed phase description =>
    blocking ("Phase '" ++ phase ++ "' description not found: " ++ description)
  | dangling phase target =>
    blocking ("Phase '" ++ phase ++ "' depends on undefined phase: '" ++ target ++ "'")
  | oddStrength phase strength =>
    advisory ("Phase '" ++ phase ++ "' dependency strength '" ++ strength ++ "' not standard")
  | repeated command => blocking (CommandRegistry.duplicateMessage command)
  | unrecorded listing command definition =>
    blocking (listing.label ++ " '" ++ command ++ "' definition not found: " ++ definition)
  | cyclic cycle => blocking ("DAG cycle detected: " ++ " -> ".intercalate cycle)
  | mismatched command declared definition =>
    blocking ("Manifest command '" ++ command ++ "' doesn't match definition command '" ++
      declared ++ "' in " ++ definition)

/-- The words with which the finding begins, up to the first name that it quotes. -/
def opening : ManifestFinding → String
  | shapeless _ | undescribed _ _ | dangling _ _ | oddStrength _ _ => "Phase '"
  | repeated _ => "Duplicate command: '"
  | unrecorded listing _ _ => listing.label ++ " '"
  | cyclic _ => "DAG cycle detected: "
  | mismatched _ _ _ => "Manifest command '"

/-- A command is listed for the second time. -/
def isRepeated : ManifestFinding → Bool
  | repeated _ => true
  | _ => false

/-- A phase depends on something that is no phase. -/
def isDangling : ManifestFinding → Bool
  | dangling _ _ => true
  | _ => false

/-- Phases depend on one another. -/
def isCyclic : ManifestFinding → Bool
  | cyclic _ => true
  | _ => false

end ManifestFinding

open ManifestFinding SkillLint.Text

variable {w : Workflow} {tree : FileTree} {manifest phases : Mapping} {listing : Listing}
  {earlier : List String}

/-! ## How findings begin -/

namespace ManifestFinding

theorem opening_prefix (f : ManifestFinding) : f.opening.toList <+: f.remark.2.toList := by
  cases f with
  | repeated command =>
      show "Duplicate command: '".toList <+: ("Duplicate command: '" ++ command ++ "'").toList
      rw [String.toList_append, String.toList_append, List.append_assoc]
      exact List.prefix_append _ _
  | _ =>
      simp only [opening, remark, blocking, advisory, String.toList_append, List.append_assoc,
        List.prefix_append, List.prefix_append_right_inj]

/-- All openings. -/
def openings : List String :=
  ["Phase '", "Duplicate command: '", "Command '", "Utility '", "DAG cycle detected: ",
    "Manifest command '"]

theorem opening_mem_openings (f : ManifestFinding) : f.opening ∈ openings := by
  cases f with
  | unrecorded listing command definition =>
      show listing.label ++ " '" ∈ openings
      cases listing <;> decide
  | _ =>
      simp only [opening]
      decide

theorem openings_apart :
    ∀ a ∈ openings, ∀ b ∈ openings, a.toList <+: b.toList → a = b := by
  decide

/-- **Findings that begin in the same way have the same opening.** -/
theorem startsWith_opening_iff (f g : ManifestFinding) :
    startsWith g.opening.toList f.remark.2.toList = true ↔ g.opening = f.opening := by
  have hf := opening_mem_openings f
  have hg := opening_mem_openings g
  rw [startsWith_eq_true_iff]
  constructor
  · -- two openings of one text: the shorter one begins the longer one
    intro hprefix
    rcases List.prefix_or_prefix_of_prefix hprefix f.opening_prefix with h | h
    · exact openings_apart _ hg _ hf h
    · exact (openings_apart _ hf _ hg h).symm
  · intro hsame
    rw [hsame]
    exact f.opening_prefix

end ManifestFinding

/-! ## The findings -/

/-- What is found about a listed command, where `earlier` are the names listed before. -/
def commandFindings (w : Workflow) (tree : FileTree) (listing : Listing) (earlier : List String)
    (entry : Mapping) : List ManifestFinding :=
  let name := entry.text "command"
  let definition := entry.text "definition"
  (if name ≠ "" ∧ earlier.count name = 1 then [repeated name] else []) ++
  (if definition ≠ "" && !tree.pathExists (w.resolve definition) then
    [unrecorded listing name definition]
  else [])

/-- What is found about listed commands, one after another. -/
def listFindings (w : Workflow) (tree : FileTree) (listing : Listing) :
    List String → List Mapping → List ManifestFinding
  | _, [] => []
  | earlier, entry :: rest =>
    commandFindings w tree listing earlier entry ++
      listFindings w tree listing (earlier ++ [entry.text "command"]) rest

/-- What is found about a dependency of a phase. -/
def dependencyFindings (phases : Mapping) (name : String) (dependency : Mapping) :
    List ManifestFinding :=
  let target := dependency.text "phase"
  let strength := dependency.text "strength"
  (if target ≠ "" && !phases.contains target then [dangling name target] else []) ++
  (if strength ≠ "" && !Vocabulary.contains DependencyStrength strength then
    [oddStrength name strength]
  else [])

/-- What is found about the description and the dependencies of a phase. -/
def phaseShapeFindings (w : Workflow) (tree : FileTree) (phases : Mapping) (name : String)
    (phase : Mapping) : List ManifestFinding :=
  let description := phase.text "description"
  (if description ≠ "" && !tree.pathExists (w.resolve description) then
    [undescribed name description]
  else []) ++
  (phase.mappings "depends_on").flatMap (dependencyFindings phases name)

/-- What is found about phases, one after another. -/
def phasesFindings (w : Workflow) (tree : FileTree) (phases : Mapping) :
    List String → PhaseEntries → List ManifestFinding
  | _, [] => []
  | earlier, (name, value) :: rest =>
    match value.asMap? with
    | none => shapeless name :: phasesFindings w tree phases earlier rest
    | some phase =>
      phaseShapeFindings w tree phases name phase ++
        listFindings w tree .phase earlier (phase.mappings "commands") ++
          phasesFindings w tree phases (earlier ++ commandNames (phase.mappings "commands")) rest

/-- What is found about the record of a listed command. -/
def mismatchFinding? (w : Workflow) (tree : FileTree) (entry : Mapping) :
    Option ManifestFinding :=
  let name := entry.text "command"
  let definition := entry.text "definition"
  let file := w.resolve definition
  if definition = "" || !tree.isFile file then none
  else
    match w.loadRecord tree file with
    | .error _ => none
    | .ok record =>
      let declared := record.text "command"
      if record.isEmpty || declared = name then none else some (mismatched name declared definition)

/-- **What there is to find in a manifest with phases**: about the phases, the utilities, the
dependencies as a whole and the records of listed commands. -/
def manifestFindings (w : Workflow) (tree : FileTree) (manifest phases : Mapping) :
    List ManifestFinding :=
  phasesFindings w tree phases [] phases.entries ++
    listFindings w tree .utility (commandNames (phaseCommands phases.entries))
      (manifest.mappings "utilities") ++
    (dependencyGraph phases).findCycles.map cyclic ++
    (listedCommands manifest phases).filterMap (mismatchFinding? w tree)

/-! ## The remarks are the findings in words -/

theorem map_remark_ite {c : Prop} [Decidable c] {f : ManifestFinding} :
    (if c then [f] else []).map remark = if c then [f.remark] else [] := by
  split <;> rfl

theorem listedRemarks_eq {entry : Mapping} {r : CommandRegistry}
    (h : r.Tracks earlier) : (listedRemarks w tree listing.label entry r).1 =
      (commandFindings w tree listing earlier entry).map remark := by
  have hanswer : ((r.register (entry.text "command")).1.toList.map blocking) =
      if entry.text "command" ≠ "" ∧ earlier.count (entry.text "command") = 1 then
        [(repeated (entry.text "command")).remark]
      else [] := by
    rw [h.answer]
    split <;> rfl
  rw [commandFindings, List.map_append, map_remark_ite, map_remark_ite, ← hanswer]
  rfl

/-- Remarks about listed commands, in a registry that tracks the names listed before. -/
theorem listRemarks_eq (listing : Listing) : ∀ (entries : List Mapping) {r : CommandRegistry}
    {earlier : List String}, r.Tracks earlier →
    (listRemarks w tree listing.label entries r).1 =
      (listFindings w tree listing earlier entries).map remark
  | [], _, _, _ => rfl
  | entry :: rest, r, earlier, h => by
      have hfirst := @listedRemarks_eq w tree listing _ entry _ h
      have hrest := listRemarks_eq listing rest (h.register (entry.text "command"))
      rw [listFindings, List.map_append, ← hfirst, ← hrest]
      rfl

theorem dependencyRemarks_eq (name : String) (dependency : Mapping) :
    dependencyRemarks phases name dependency =
      (dependencyFindings phases name dependency).map remark := by
  rw [dependencyFindings, List.map_append, map_remark_ite, map_remark_ite]
  rfl

theorem phaseShapeRemarks_eq (name : String) (phase : Mapping) :
    phaseShapeRemarks w tree phases name phase =
      (phaseShapeFindings w tree phases name phase).map remark := by
  have hdependencies : dependencyRemarks phases name =
      fun dependency => (dependencyFindings phases name dependency).map remark :=
    funext (dependencyRemarks_eq name)
  rw [phaseShapeFindings, List.map_append, map_remark_ite, List.map_flatMap, ← hdependencies]
  rfl

/-- Remarks about phases, in a registry that tracks the names listed before. -/
theorem phasesRemarks_eq : ∀ (entries : PhaseEntries) {r : CommandRegistry}
    {earlier : List String}, r.Tracks earlier →
    (phasesRemarks w tree phases entries r).1 =
      (phasesFindings w tree phases earlier entries).map remark
  | [], _, _, _ => rfl
  | (name, value) :: rest, r, earlier, h => by
      cases hvalue : value.asMap? with
      | none =>
          have hrest := phasesRemarks_eq rest h
          simp only [phasesRemarks, phasesFindings, hvalue, List.map_cons, ← hrest]
          rfl
      | some phase =>
          -- the rest meets the registry that this phase leaves, which tracks its commands too
          have hregistry := (@listRemarks_spec w tree "Command" (phase.mappings "commands") r).1
          have hlist : (listRemarks w tree "Command" (phase.mappings "commands") r).1 =
              (listFindings w tree .phase earlier (phase.mappings "commands")).map remark :=
            listRemarks_eq .phase _ h
          have hrest := phasesRemarks_eq rest
            (h.registerAll (commandNames (phase.mappings "commands")))
          rw [phasesRemarks_cons hvalue]
          simp only [phasesFindings, hvalue, List.map_append, ← phaseShapeRemarks_eq, ← hlist,
            ← hrest, hregistry]

theorem mismatch?_eq (entry : Mapping) :
    mismatch? w tree entry = (mismatchFinding? w tree entry).map remark := by
  rw [mismatch?, mismatchFinding?, apply_ite (Option.map remark)]
  refine if_congr Iff.rfl rfl ?_
  cases w.loadRecord tree (w.resolve (entry.text "definition")) with
  | error reason => rfl
  | ok record =>
    dsimp only
    split <;> rfl

/-- **The remarks about a manifest with phases are its findings, in words.** -/
theorem manifestRemarks_eq (hphases : phasesOf manifest = .ok phases) :
    manifestRemarks w tree manifest = (manifestFindings w tree manifest phases).map remark := by
  have hempty := CommandRegistry.tracks_empty
  have htracks := hempty.registerAll (commandNames (phaseCommands phases.entries))
  have hmismatches : mismatch? w tree = fun entry => (mismatchFinding? w tree entry).map remark :=
    funext mismatch?_eq
  have hutilities : (listRemarks w tree "Utility" (manifest.mappings "utilities")
      (CommandRegistry.empty.registerAll (commandNames (phaseCommands phases.entries)))).1 =
      (listFindings w tree .utility (commandNames (phaseCommands phases.entries))
        (manifest.mappings "utilities")).map remark := listRemarks_eq .utility _ htracks
  rw [manifestRemarks_of_phases hphases, phasesRemarks_eq _ hempty, hutilities, manifestFindings,
    hmismatches]
  simp only [List.map_append, List.map_filterMap, List.map_map]
  rfl

/-- The manifest of a tree, with its phases, if it loads and has some. -/
def loadedPhases? (w : Workflow) (tree : FileTree) : Option (Mapping × Mapping) :=
  match w.loadRecord tree w.manifest with
  | .error _ => none
  | .ok manifest =>
    match phasesOf manifest with
    | .error _ => none
    | .ok phases => some (manifest, phases)

theorem loadedPhases?_eq_some_iff : w.loadedPhases? tree = some (manifest, phases) ↔
    w.loadRecord tree w.manifest = .ok manifest ∧ phasesOf manifest = .ok phases := by
  rw [loadedPhases?]
  cases w.loadRecord tree w.manifest with
  | error reason => simp
  | ok loaded => cases hphases : phasesOf loaded <;> grind

/-- The issues about a manifest that was loaded. -/
def loadedIssues (w : Workflow) (tree : FileTree) (manifest : Mapping) : List Issue :=
  (manifestRemarks w tree manifest).map fun (severity, message) =>
    ⟨manifestScope, manifestCheck, severity, message, some (w.relative w.manifest)⟩

theorem manifestIssues_of_load (hload : w.loadRecord tree w.manifest = .ok manifest) :
    w.manifestIssues tree = w.loadedIssues tree manifest := by
  have hexists := pathExists_of_isFile (isFile_of_loadRecord hload)
  rw [manifestIssues, hexists, hload]
  rfl

/-- The issue that a finding becomes. -/
def findingIssue (w : Workflow) (finding : ManifestFinding) : Issue :=
  ⟨manifestScope, manifestCheck, finding.remark.1, finding.remark.2, some (w.relative w.manifest)⟩

/-- **The issues about a manifest with phases are its findings.** -/
theorem loadedIssues_eq (hphases : phasesOf manifest = .ok phases) :
    w.loadedIssues tree manifest =
      (manifestFindings w tree manifest phases).map (findingIssue w) := by
  rw [loadedIssues, manifestRemarks_eq hphases, List.map_map]
  rfl

/-! ## Findings of one kind -/

theorem filter_ite_of_pos {p : ManifestFinding → Bool} {c : Prop} [Decidable c]
    {f : ManifestFinding} (hf : p f = true) :
    (if c then [f] else []).filter p = if c then [f] else [] := by
  split
  · exact List.filter_eq_self.mpr fun g hg => List.mem_singleton.mp hg ▸ hf
  · rfl

theorem filter_ite_of_neg {p : ManifestFinding → Bool} {c : Prop} [Decidable c]
    {f : ManifestFinding} (hf : p f = false) : (if c then [f] else []).filter p = [] := by
  split
  · rw [List.filter_cons_of_neg (by rw [hf]; exact Bool.false_ne_true), List.filter_nil]
  · rfl

theorem filter_map_of_pos {α : Type} {p : ManifestFinding → Bool} {f : α → ManifestFinding}
    (hf : ∀ a, p (f a) = true) (as : List α) : (as.map f).filter p = as.map f := by
  rw [List.filter_eq_self, List.forall_mem_map]
  exact fun a _ => hf a

theorem filter_map_of_neg {α : Type} {p : ManifestFinding → Bool} {f : α → ManifestFinding}
    (hf : ∀ a, p (f a) = false) (as : List α) : (as.map f).filter p = [] := by
  rw [List.filter_eq_nil_iff, List.forall_mem_map]
  intro a _
  rw [hf]
  exact Bool.false_ne_true

/-- Apart from files that do not exist, the findings about listed commands are those that come
for the second time. -/
theorem filter_listFindings {p : ManifestFinding → Bool}
    (hfile : ∀ command definition, p (unrecorded listing command definition) = false) :
    ∀ (entries : List Mapping) (earlier : List String),
      (listFindings w tree listing earlier entries).filter p =
        ((repeatedIn earlier (commandNames entries)).map repeated).filter p
  | [], _ => rfl
  | entry :: rest, earlier => by
      have hrest := filter_listFindings hfile rest (earlier ++ [entry.text "command"])
      rw [listFindings, commandFindings, List.filter_append, List.filter_append,
        filter_ite_of_neg (hfile _ _), List.append_nil, hrest, ← List.filter_append]
      show _ =
        ((repeatedIn earlier (entry.text "command" :: commandNames rest)).map repeated).filter p
      rw [repeatedIn, List.map_append, apply_ite (List.map repeated)]
      rfl

theorem filter_listFindings_eq_nil {p : ManifestFinding → Bool}
    (hfile : ∀ command definition, p (unrecorded listing command definition) = false)
    (hrepeated : ∀ command, p (repeated command) = false) (entries : List Mapping)
    (earlier : List String) : (listFindings w tree listing earlier entries).filter p = [] := by
  rw [filter_listFindings hfile, filter_map_of_neg hrepeated]

/-- A phase says nothing of itself about other things than its description and dependencies. -/
theorem filter_phaseShapeFindings_eq_nil {p : ManifestFinding → Bool}
    (hdescription : ∀ phase description, p (undescribed phase description) = false)
    (htarget : ∀ phase target, p (dangling phase target) = false)
    (hstrength : ∀ phase strength, p (oddStrength phase strength) = false)
    (name : String) (phase : Mapping) :
    (phaseShapeFindings w tree phases name phase).filter p = [] := by
  rw [phaseShapeFindings, List.filter_append, filter_ite_of_neg (hdescription _ _),
    List.nil_append, List.filter_flatMap, List.flatMap_eq_nil_iff]
  intro dependency _
  rw [dependencyFindings, List.filter_append, filter_ite_of_neg (htarget _ _),
    filter_ite_of_neg (hstrength _ _)]
  rfl

/-- About the record of a command nothing else is found than that it declares another name. -/
theorem eq_mismatched_of_mismatchFinding? {entry : Mapping} {f : ManifestFinding}
    (h : mismatchFinding? w tree entry = some f) :
    ∃ command declared definition, f = mismatched command declared definition := by
  simp only [mismatchFinding?] at h
  split at h
  · cases h
  · split at h
    · cases h
    · split at h
      · cases h
      · exact ⟨_, _, _, (Option.some.inj h).symm⟩

theorem filter_mismatches_of_neg {p : ManifestFinding → Bool} {entries : List Mapping}
    (hp : ∀ command declared definition, p (mismatched command declared definition) = false) :
    (entries.filterMap (mismatchFinding? w tree)).filter p = [] := by
  rw [List.filter_eq_nil_iff]
  intro f hf
  obtain ⟨entry, -, hentry⟩ := List.mem_filterMap.mp hf
  obtain ⟨command, declared, definition, rfl⟩ := eq_mismatched_of_mismatchFinding? hentry
  rw [hp]
  exact Bool.false_ne_true

end SkillLint.Workflow
