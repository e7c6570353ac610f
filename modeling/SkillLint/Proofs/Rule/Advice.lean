import SkillLint.Proofs.Report.Blocking
import SkillLint.Rule.Registry

/-!
# Rules that only advise

Rules say what they find as findings, and `Advises` says that none of these is an error; it
goes through findings piece by piece, as `NoErrors` does through issues.  A rule about the
document blocks a skill with a document exactly if its findings do not advise
(`noErrors_onDocument`).

**Most rules about the document never block** (`NeverBlocks`), whatever the header and the
body hold: those about length, about the form of the description, about the sections of the
body and about the words of the metadata.
-/

namespace SkillLint.Rule

variable {tree : FileTree} {skill : Skill} {doc : Document}

/-! ## Findings -/

/-- None of the findings is an error. -/
def Advises (findings : List Finding) : Prop := ∀ f ∈ findings, f.severity ≠ .error

@[simp] theorem advises_nil : Advises [] := fun _ h => absurd h List.not_mem_nil

@[simp] theorem advises_append {a b : List Finding} : Advises (a ++ b) ↔ Advises a ∧ Advises b :=
  List.forall_mem_append

@[simp] theorem advises_singleton {f : Finding} : Advises [f] ↔ f.severity ≠ .error :=
  List.forall_mem_singleton

/-- A finding where a condition fails advises unless it is an error. -/
@[simp] theorem advises_ite_nil {c : Prop} [Decidable c] {f : Finding} :
    Advises (if c then [] else [f]) ↔ c ∨ f.severity ≠ .error := by
  split <;> simp_all

/-- A finding where a condition holds advises unless it is an error. -/
@[simp] theorem advises_ite_singleton {c : Prop} [Decidable c] {f : Finding} :
    Advises (if c then [f] else []) ↔ ¬ c ∨ f.severity ≠ .error := by
  split <;> simp_all

@[simp] theorem severity_error (message : String) :
    (Finding.error message).severity = .error := rfl

@[simp] theorem severity_warning (message : String) :
    (Finding.warning message).severity = .warning := rfl

@[simp] theorem advises_map_warning {α : Type} {xs : List α} {message : α → String} :
    Advises (xs.map fun x => .warning (message x)) := by
  intro f hf
  obtain ⟨x, -, rfl⟩ := List.mem_map.mp hf
  exact fun h => nomatch h

/-- Errors about each of some things advise only if there are none of these things. -/
@[simp] theorem advises_map_error {α : Type} {xs : List α} {message : α → String} :
    Advises (xs.map fun x => .error (message x)) ↔ xs = [] := by
  cases xs with
  | nil => simp
  | cons x rest =>
    exact ⟨fun h => absurd rfl (h _ List.mem_cons_self), fun h => absurd h (List.cons_ne_nil _ _)⟩

/-! ## Rules -/

/-- A rule about the document blocks a skill with a document if its findings do. -/
theorem noErrors_onDocument {name : String} {findings : FileTree → Skill → Document → List Finding}
    (hdoc : skill.document? tree = some doc) :
    NoErrors ((onDocument name findings).check tree skill) ↔ Advises (findings tree skill doc) := by
  simp only [onDocument, hdoc, NoErrors, List.forall_mem_map, Advises]
  exact forall₂_congr fun f _ => decide_eq_false_iff_not

/-- The rule reports no error, whatever the skill. -/
def NeverBlocks (rule : Rule) : Prop := ∀ tree skill, NoErrors (rule.check tree skill)

theorem neverBlocks_onDocument {name : String}
    {findings : FileTree → Skill → Document → List Finding}
    (h : ∀ tree skill doc, Advises (findings tree skill doc)) :
    (onDocument name findings).NeverBlocks := by
  intro tree skill
  cases hdoc : skill.document? tree with
  | none =>
    simp only [onDocument, hdoc]
    exact fun _ hi => absurd hi List.not_mem_nil
  | some doc => exact (noErrors_onDocument hdoc).mpr (h tree skill doc)

theorem neverBlocks_descriptionLength (limit : Nat) : (descriptionLength limit).NeverBlocks := by
  refine neverBlocks_onDocument fun _ _ doc => ?_
  cases doc.description? with
  | none => simp
  | some text => simp

theorem neverBlocks_descriptionFormat : descriptionFormat.NeverBlocks := by
  refine neverBlocks_onDocument fun _ _ doc => ?_
  cases doc.description? with
  | none => simp
  | some text => simp

theorem neverBlocks_metadataWord (α : Type) [Vocabulary α] (name field : String) :
    (metadataWord α name field).NeverBlocks := by
  refine neverBlocks_onDocument fun _ _ doc => ?_
  cases (doc.header.present? "metadata").bind Value.asMap? with
  | none => simp
  | some metadata =>
    dsimp only
    cases metadata.present? field <;> simp

theorem neverBlocks_coreWorkflow : coreWorkflow.NeverBlocks := by
  refine neverBlocks_onDocument fun _ _ doc => ?_
  cases Markdown.sectionAfter? coreWorkflowHeading? doc.body.toList with
  | none => simp
  | some content => simp

theorem neverBlocks_whenToUse : whenToUse.NeverBlocks := by
  refine neverBlocks_onDocument fun _ _ doc => ?_
  cases Markdown.sectionAfter? whenToUseHeading? doc.body.toList with
  | none => simp
  | some content => simp

theorem neverBlocks_sectionOrder : sectionOrder.NeverBlocks := by
  refine neverBlocks_onDocument fun _ _ doc => ?_
  cases firstInversion? (knownSections doc.body) with
  | none => simp
  | some titles => simp

theorem neverBlocks_lineCount (least most : Nat) : (lineCount least most).NeverBlocks := by
  refine neverBlocks_onDocument fun _ _ doc => ?_
  dsimp only
  split <;> simp

end SkillLint.Rule
