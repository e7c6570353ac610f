import SkillLint.Workflow.Record

/-!
# Findings that do not block

A run fails on errors alone.  `NoErrors` says that a list of issues holds none, and
`Workflow.Passes` says the same of remarks before they are tied to a file.  Both go
through lists and conditions piece by piece, so that what blocks can be read off the
pieces a check is put together from.
-/

namespace SkillLint

/-- None of the issues is an error. -/
def NoErrors (issues : List Issue) : Prop := ∀ i ∈ issues, i.isError = false

instance (issues : List Issue) : Decidable (NoErrors issues) :=
  inferInstanceAs (Decidable (∀ i ∈ issues, i.isError = false))

@[simp] theorem noErrors_append {a b : List Issue} :
    NoErrors (a ++ b) ↔ NoErrors a ∧ NoErrors b :=
  List.forall_mem_append

@[simp] theorem noErrors_flatMap {α : Type} {xs : List α} {f : α → List Issue} :
    NoErrors (xs.flatMap f) ↔ ∀ x ∈ xs, NoErrors (f x) :=
  List.forall_mem_flatMap

namespace Workflow

/-- None of the remarks blocks. -/
def Passes (remarks : List Remark) : Prop := ∀ r ∈ remarks, r.1 ≠ .error

@[simp] theorem passes_nil : Passes [] := fun _ h => absurd h List.not_mem_nil

@[simp] theorem passes_append {a b : List Remark} : Passes (a ++ b) ↔ Passes a ∧ Passes b :=
  List.forall_mem_append

@[simp] theorem passes_flatMap {α : Type} {xs : List α} {f : α → List Remark} :
    Passes (xs.flatMap f) ↔ ∀ x ∈ xs, Passes (f x) :=
  List.forall_mem_flatMap

@[simp] theorem not_passes_blocking {message : String} {rest : List Remark} :
    ¬ Passes (blocking message :: rest) :=
  fun h => h _ List.mem_cons_self rfl

@[simp] theorem passes_advisory {message : String} : Passes [advisory message] := by
  intro r hr
  rw [List.mem_singleton.mp hr]
  exact fun h => nomatch h

/-- Remarks that all block pass only if there are none. -/
theorem passes_map_iff {α : Type} {xs : List α} {f : α → Remark}
    (hf : ∀ x, (f x).1 = .error) : Passes (xs.map f) ↔ xs = [] := by
  cases xs with
  | nil => simp
  | cons x rest =>
    exact ⟨fun h => absurd (hf x) (h _ List.mem_cons_self), fun h => absurd h (by simp)⟩

@[simp] theorem passes_ite_blocking {c : Prop} [Decidable c] {message : String} :
    Passes (if c then [blocking message] else []) ↔ ¬ c := by
  split <;> simp_all

@[simp] theorem passes_ite_advisory {c : Prop} [Decidable c] {message : String} :
    Passes (if c then [advisory message] else []) := by
  split <;> simp

/-- Issues made of remarks are errors where the remarks block. -/
theorem noErrors_map_remarks {remarks : List Remark} {scope check : String}
    {file : Option String} :
    NoErrors (remarks.map fun (severity, message) => ⟨scope, check, severity, message, file⟩) ↔
      Passes remarks := by
  unfold NoErrors Passes
  rw [List.forall_mem_map]
  exact forall₂_congr fun r _ => decide_eq_false_iff_not

end Workflow
end SkillLint
