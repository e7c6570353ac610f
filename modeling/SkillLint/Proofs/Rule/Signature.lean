import Mathlib.Data.List.Nodup
import SkillLint.Rule.Registry

/-!
# Signed issues

An issue says which rule it is from and which skill it is about.  A rule **signs** its issues
(`Signs`) if every one of them carries the name of the rule and that of the skill; every rule of
the registry does (`signs_of_mem_registry`).  As no two rules of the registry have the same name
either, **the issues of a category are those of all rules that carry the name of one of the
category**, in the same order (`issues_registryFor`).
-/

namespace SkillLint.Rule

variable {rule : Rule}

/-- The issues of the rule carry its name, and that of the skill. -/
def Signs (rule : Rule) : Prop :=
  ∀ tree skill, ∀ i ∈ rule.check tree skill, i.scope = skill.id ∧ i.check = rule.name

/-! ## The rules of the registry -/

theorem signs_onDocument (name : String)
    (findings : FileTree → Skill → Document → List Finding) : (onDocument name findings).Signs := by
  intro tree skill i hi
  simp only [onDocument] at hi
  split at hi
  · cases hi
  · obtain ⟨f, -, rfl⟩ := List.mem_map.mp hi
    exact ⟨rfl, rfl⟩

theorem signs_readable : readable.Signs := by
  intro tree skill i hi
  simp only [readable] at hi
  split at hi
  · cases hi
  · obtain rfl := List.mem_singleton.mp hi
    exact ⟨rfl, rfl⟩

theorem signs_referencesDirectory : referencesDirectory.Signs := by
  intro tree skill i hi
  simp only [referencesDirectory] at hi
  split at hi
  · obtain rfl := List.mem_singleton.mp hi
    exact ⟨rfl, rfl⟩
  · split at hi
    · obtain rfl := List.mem_singleton.mp hi
      exact ⟨rfl, rfl⟩
    · cases hi

theorem signs_referenceCount : referenceCount.Signs := by
  intro tree skill i hi
  simp only [referenceCount] at hi
  split at hi
  · obtain rfl := List.mem_singleton.mp hi
    exact ⟨rfl, rfl⟩
  · cases hi

theorem signs_nonStandardHeaders (scanLines : Nat) : (nonStandardHeaders scanLines).Signs := by
  intro tree skill i hi
  simp only [nonStandardHeaders] at hi
  split at hi
  · obtain ⟨file, -, hi⟩ := List.mem_flatMap.mp hi
    obtain ⟨f, -, rfl⟩ := List.mem_map.mp hi
    exact ⟨rfl, rfl⟩
  · cases hi

/-- **Every rule of the registry signs its issues.** -/
theorem signs_of_mem_registry {limits : Limits} (hrule : rule ∈ registry limits) : rule.Signs := by
  simp only [registry, List.mem_cons, List.not_mem_nil, or_false] at hrule
  rcases hrule with rfl | rfl | rfl | rfl | rfl | rfl | rfl | rfl | rfl | rfl | rfl | rfl | rfl |
    rfl | rfl
  all_goals first
    | exact signs_onDocument _ _
    | exact signs_readable
    | exact signs_referencesDirectory
    | exact signs_referenceCount
    | exact signs_nonStandardHeaders _

/-- The names of the rules do not depend on the limits. -/
theorem names_registry (limits : Limits) : (registry limits).map Rule.name =
    ["yaml", "required-fields", "metadata-fields", "name-format", "description-length",
      "description-format", "scope-enum", "output-format-enum", "core-workflow-steps",
      "when-to-use-format", "section-order", "line-count", "references-directory",
      "reference-file-count", "non-standard-headers"] := rfl

/-- No two rules of the registry have the same name. -/
theorem nodup_names_registry (limits : Limits) : ((registry limits).map Rule.name).Nodup := by
  rw [names_registry]
  decide

/-! ## Picking issues by their signature -/

variable {rules : List Rule} {tree : FileTree} {skill : Skill}

/-- Either all issues of a rule carry one of the names, or none does. -/
theorem Signs.filter_check (hsigns : rule.Signs) (names : List String) :
    (rule.check tree skill).filter (fun i => i.check ∈ names) =
      if rule.name ∈ names then rule.check tree skill else [] := by
  split
  · rename_i hname
    refine List.filter_eq_self.mpr fun i hi => ?_
    rw [(hsigns tree skill i hi).2]
    exact decide_eq_true hname
  · rename_i hname
    refine List.filter_eq_nil_iff.mpr fun i hi => ?_
    rw [(hsigns tree skill i hi).2]
    exact fun hin => hname (of_decide_eq_true hin)

/-- Issues that carry one of the names are those of the rules that have one of the names. -/
theorem filter_issues (names : List String) : ∀ {rules : List Rule},
    (∀ rule ∈ rules, rule.Signs) →
      (issues rules tree skill).filter (fun i => i.check ∈ names) =
        issues (rules.filter (·.name ∈ names)) tree skill
  | [], _ => rfl
  | rule :: rest, hsigns => by
      obtain ⟨hrule, hrest⟩ := List.forall_mem_cons.mp hsigns
      have hrest' := filter_issues names hrest
      simp only [issues] at hrest' ⊢
      rw [List.flatMap_cons, List.filter_append, hrule.filter_check, hrest', List.filter_cons]
      by_cases hname : rule.name ∈ names <;> simp [hname]

/-- Rules with distinct names are picked out by their names. -/
theorem filter_name_mem (hnodup : (rules.map Rule.name).Nodup) (keep : Rule → Bool) :
    rules.filter (·.name ∈ (rules.filter keep).map Rule.name) = rules.filter keep := by
  refine List.filter_congr fun rule hrule => Bool.eq_iff_iff.mpr ?_
  rw [decide_eq_true_iff]
  constructor
  · intro hname
    obtain ⟨other, hother, hsame⟩ := List.mem_map.mp hname
    obtain ⟨hmem, hkept⟩ := List.mem_filter.mp hother
    rwa [← List.inj_on_of_nodup_map hnodup hmem hrule hsame]
  · exact fun hkept => List.mem_map_of_mem (List.mem_filter.mpr ⟨hrule, hkept⟩)

/-- The names of the rules of a category. -/
def checksOf (limits : Limits) (category : Category) : List String :=
  (registryFor limits (some category)).map Rule.name

theorem registryFor_none (limits : Limits) : registryFor limits none = registry limits :=
  List.filter_eq_self.mpr fun _ _ => rfl

/-- **The issues of a category** are those of all rules that a rule of the category signed. -/
theorem issues_registryFor (limits : Limits) (category : Category) :
    issues (registryFor limits (some category)) tree skill =
      (issues (registryFor limits none) tree skill).filter
        fun i => i.check ∈ checksOf limits category := by
  rw [registryFor_none, filter_issues _ fun _ => signs_of_mem_registry, checksOf, registryFor,
    filter_name_mem (nodup_names_registry limits)]

/-- An issue of the registry is about the skill, and a rule of the registry signed it. -/
theorem signed_of_mem_issues {limits : Limits} {i : Issue}
    (hi : i ∈ issues (registry limits) tree skill) :
    i.scope = skill.id ∧ ∃ rule ∈ registry limits, i.check = rule.name := by
  obtain ⟨rule, hrule, hi⟩ := List.mem_flatMap.mp hi
  obtain ⟨hscope, hcheck⟩ := signs_of_mem_registry hrule tree skill i hi
  exact ⟨hscope, rule, hrule, hcheck⟩

end SkillLint.Rule
