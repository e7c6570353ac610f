import SkillLint.Proofs.Path.Spelling
import SkillLint.Workflow.Context

/-!
# Labels of paths

Messages show a path by its **label** (`relative`): its steps below the root of the project, with
slashes between them.  A label leads back to the path (`components_resolve_relative`), and a path
that a record writes plainly, as names with single slashes between them (`IsOrdinary`), is its own
label.  So **resolving a plain text and showing the path gives the text again**, however the root
is spelled, and different plain texts never have the same label (`relative_resolve`).
-/

namespace SkillLint.Workflow

variable {w : Workflow} {p : Path} {text : String}

/-! ## Steps below the root -/

theorem relative_eq_spelling (w : Workflow) (p : Path) :
    w.relative p = Path.spelling (w.stepsBelowRoot p) := rfl

theorem stepsBelowRoot_of_append {rest : List Path.Component}
    (h : w.root.components ++ rest = p.components) : w.stepsBelowRoot p = rest := by
  have hbelow : w.root.components.isPrefixOf p.components = true :=
    List.isPrefixOf_iff_prefix.mpr ⟨rest, h⟩
  rw [stepsBelowRoot, Path.stripPrefix?, if_pos hbelow, Option.getD_some, ← h,
    List.drop_left]

theorem stepsBelowRoot_of_elsewhere (h : ¬ w.root.components <+: p.components) :
    w.stepsBelowRoot p = p.components := by
  rw [stepsBelowRoot, Path.stripPrefix?, if_neg (mt List.isPrefixOf_iff_prefix.mp h),
    Option.getD_none]

/-- **The label of a path leads back to it**, if the path goes on from the root of the project or
is absolute. -/
theorem components_resolve_relative
    (h : w.root.components <+: p.components ∨ p.components.head? = some .root) :
    (w.resolve (w.relative p)).components = p.components := by
  have hsteps := Path.steps_components p
  rw [resolve, relative_eq_spelling]
  by_cases hbelow : w.root.components <+: p.components
  · obtain ⟨rest, hrest⟩ := hbelow
    rw [stepsBelowRoot_of_append hrest]
    by_cases hroot : w.root.components = []
    · rw [Path.eq_of_components_eq_nil hroot, Path.join_empty]
      rw [hroot, List.nil_append] at hrest
      rw [hrest, Path.components_spelling hsteps]
    · rw [← hrest] at hsteps ⊢
      exact Path.components_join_spelling (hsteps.inner_of_append hroot) w.root
  · obtain ⟨rest, hrest⟩ := List.head?_eq_some_iff.mp (h.resolve_left hbelow)
    have habsolute : (Path.spelling p.components).toList.head? = some '/' := by
      cases rest <;> simp [hrest, Path.spelling, Path.Component.text]
    rw [stepsBelowRoot_of_elsewhere hbelow, Path.join, if_pos habsolute,
      Path.components_spelling hsteps]

/-! ## Plain texts -/

/-- The text is names, at least one, with single slashes between them. -/
def IsOrdinary (text : String) : Prop :=
  ∃ names : List String, names ≠ [] ∧ (∀ name ∈ names, IsName name) ∧
    text = "/".intercalate names

/-- Names with slashes between them spell the steps by these names. -/
theorem intercalate_eq_spelling (names : List String) :
    "/".intercalate names = Path.spelling (names.map Path.Component.normal) := by
  have htexts : (names.map Path.Component.normal).map Path.Component.text = names := by
    rw [List.map_map]
    exact List.map_id names
  rw [Path.spelling, htexts]

/-- A plain text is the label of the path that it resolves to. -/
theorem IsOrdinary.relative_resolve_eq (h : IsOrdinary text) (w : Workflow) :
    w.relative (w.resolve text) = text := by
  obtain ⟨names, -, hnames, rfl⟩ := h
  have hinner : ∀ step ∈ names.map Path.Component.normal, step.Inner := by
    intro step hstep
    obtain ⟨name, hname, rfl⟩ := List.mem_map.mp hstep
    exact .normal (hnames name hname)
  have hsteps := Path.components_join_spelling hinner w.root
  rw [intercalate_eq_spelling, resolve, relative_eq_spelling, stepsBelowRoot_of_append hsteps.symm]

/-- **Showing a path undoes resolving its plain text**, for every root of a project, and so
different plain texts have different labels. -/
theorem relative_resolve (w : Workflow) :
    (∀ text, IsOrdinary text → w.relative (w.resolve text) = text) ∧
      ∀ text text', IsOrdinary text → IsOrdinary text' → text ≠ text' →
        w.relative (w.resolve text) ≠ w.relative (w.resolve text') := by
  refine ⟨fun text h => h.relative_resolve_eq w, fun text text' h h' hne hsame => hne ?_⟩
  rwa [h.relative_resolve_eq, h'.relative_resolve_eq] at hsame

/-- A project whose root steps up again and ends with slashes. -/
def windingWorkflow : Workflow := ofProject ⟨"./drafts//..//"⟩ .default .full

theorem relative_resolve_windingWorkflow :
    (windingWorkflow.resolve "commands/a.b").text = "./drafts//..//commands/a.b" ∧
      windingWorkflow.relative (windingWorkflow.resolve "commands/a.b") = "commands/a.b" ∧
      windingWorkflow.relative (windingWorkflow.resolve "commands/a.b") ≠
        windingWorkflow.relative (windingWorkflow.resolve "commands/ab") := by
  have hdotted : IsOrdinary "commands/a.b" := ⟨["commands", "a.b"], by decide, by decide, by decide⟩
  have hplain : IsOrdinary "commands/ab" := ⟨["commands", "ab"], by decide, by decide, by decide⟩
  obtain ⟨hlabel, hdistinct⟩ := relative_resolve windingWorkflow
  exact ⟨by decide, hlabel _ hdotted, hdistinct _ _ hdotted hplain (by decide)⟩

end SkillLint.Workflow
