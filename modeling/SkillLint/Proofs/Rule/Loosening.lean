import Mathlib.Data.List.Flatten
import SkillLint.Proofs.Rule.LegacyMarkers
import SkillLint.Rule.Registry

/-!
# Looser limits

A project sets four limits.  They are **looser** (`Limits.Looser`) if fewer lines are enough, more
lines and characters are allowed, and fewer lines are searched for marker phrases.

Looser limits may change what an issue says, for the limits and the markers are named in messages.
But a rule under looser limits never speaks of more (`Covers`): whatever it reports, the strict rule
reports about the same file and with the same weight.  A body that is too short for a small minimum
is too short for a great one, and if it is too long under the loose limits, the strict limits find
it too long or even too short.  So **loosening limits only leaves out findings**, and what is left
is in the same order (`findings_run_registry`).
-/

namespace SkillLint

open SkillLint.Text

/-- The second limits allow all that the first ones do. -/
structure Limits.Looser (strict loose : Limits) : Prop where
  minBodyLines : loose.minBodyLines ≤ strict.minBodyLines
  maxBodyLines : strict.maxBodyLines ≤ loose.maxBodyLines
  maxDescriptionChars : strict.maxDescriptionChars ≤ loose.maxDescriptionChars
  markerScanLines : loose.markerScanLines ≤ strict.markerScanLines

/-- What an issue reports, apart from its wording: the check, the weight and the file. -/
def Issue.finding (i : Issue) : String × Severity × Option String := (i.check, i.severity, i.file)

namespace Rule

variable {strict loose : Rule} {tree : FileTree} {skill : Skill}

/-- The first rule reports all that the second one does, and in the same order. -/
def Covers (strict loose : Rule) : Prop :=
  ∀ tree skill, ((loose.check tree skill).map Issue.finding).Sublist
    ((strict.check tree skill).map Issue.finding)

theorem Covers.refl (rule : Rule) : rule.Covers rule := fun _ _ => List.Sublist.refl _

/-- Issues about one file are told apart by their weight. -/
theorem map_finding_toIssue (findings : List Finding) (skill : Skill) (name : String)
    (file : Path) :
    (findings.map (·.toIssue skill name file)).map Issue.finding =
      (findings.map Finding.severity).map fun severity => (name, severity, some file.text) := by
  rw [List.map_map, List.map_map]
  rfl

/-- **Rules about the document** are compared by the weights of their findings. -/
theorem covers_onDocument {name : String}
    {strict loose : FileTree → Skill → Document → List Finding}
    (h : ∀ tree skill doc, ((loose tree skill doc).map Finding.severity).Sublist
      ((strict tree skill doc).map Finding.severity)) :
    (onDocument name strict).Covers (onDocument name loose) := by
  intro tree skill
  simp only [onDocument]
  split
  · exact List.Sublist.refl _
  · rename_i doc hdoc
    rw [map_finding_toIssue, map_finding_toIssue]
    exact (h tree skill doc).map _

theorem covers_lineCount {least most least' most' : Nat} (hleast : least' ≤ least)
    (hmost : most ≤ most') : (lineCount least most).Covers (lineCount least' most') := by
  refine covers_onDocument fun _ _ doc => ?_
  simp only [apply_ite (List.map Finding.severity), List.map_cons, List.map_nil, Finding.warning]
  by_cases hshort : filledLines doc.body < least
  · -- too short for the strict limits: one finding, whatever the loose ones say
    rw [if_pos hshort]
    split
    · exact List.Sublist.refl _
    · split
      · exact List.Sublist.refl _
      · exact List.nil_sublist _
  · rw [if_neg hshort, if_neg (by omega : ¬ filledLines doc.body < least')]
    split
    · rename_i hlong
      rw [if_pos (by omega : filledLines doc.body > most)]
    · exact List.nil_sublist _

theorem covers_descriptionLength {limit limit' : Nat} (hlimit : limit ≤ limit') :
    (descriptionLength limit).Covers (descriptionLength limit') := by
  refine covers_onDocument fun _ _ doc => ?_
  cases doc.description? with
  | none => exact List.Sublist.refl _
  | some text =>
    simp only [apply_ite (List.map Finding.severity), List.map_cons, List.map_nil, Finding.warning]
    split
    · rename_i hlong
      rw [if_pos (by omega : text.toList.length > limit)]
    · exact List.nil_sublist _

/-! ## Marker phrases -/

/-- A phrase in the first lines stands in more of them too. -/
theorem InTopLines.mono {count count' : Nat} {text phrase : String} (hcount : count' ≤ count)
    (h : InTopLines count' text phrase) : InTopLines count text phrase := by
  obtain ⟨line, hline, hphrase⟩ := h
  exact ⟨line, (List.take_prefix_take_left hcount).subset hline, hphrase⟩

theorem topMarkers_sublist {count count' : Nat} (hcount : count' ≤ count) (text : String) :
    (topMarkers count' text).Sublist (topMarkers count text) := by
  refine List.monotone_filter_right _ fun phrase hphrase => ?_
  exact decide_eq_true (InTopLines.mono hcount (of_decide_eq_true hphrase))

theorem severities_markerFindings {count count' : Nat} (hcount : count' ≤ count)
    (reading : Except ReadError String) :
    ((markerFindings count' reading).map Finding.severity).Sublist
      ((markerFindings count reading).map Finding.severity) := by
  cases reading with
  | error reason => exact List.Sublist.refl _
  | ok text =>
    rw [markerFindings_eq, markerFindings_eq, objection?, objection?]
    by_cases hloose : topMarkers count' text = []
    · rw [if_pos hloose]
      exact List.nil_sublist _
    · have hstrict : topMarkers count text ≠ [] := fun hnone =>
        hloose (List.sublist_nil.mp (hnone ▸ topMarkers_sublist hcount text))
      rw [if_neg hloose, if_neg hstrict]
      exact List.Sublist.refl [Severity.error]

theorem covers_nonStandardHeaders {count count' : Nat} (hcount : count' ≤ count) :
    (nonStandardHeaders count).Covers (nonStandardHeaders count') := by
  intro tree skill
  simp only [nonStandardHeaders]
  split
  · rw [List.map_flatMap, List.map_flatMap]
    refine List.Sublist.flatMap_right _ fun file _ => ?_
    rw [map_finding_toIssue, map_finding_toIssue]
    exact (severities_markerFindings hcount _).map _
  · exact List.Sublist.refl _

/-! ## All rules -/

/-- **Rules that cover others, one by one, report all that these do.** -/
theorem map_finding_issues {rules rules' : List Rule} (h : List.Forall₂ Covers rules rules')
    (tree : FileTree) (skill : Skill) : ((issues rules' tree skill).map Issue.finding).Sublist
      ((issues rules tree skill).map Issue.finding) := by
  induction h with
  | nil => exact List.Sublist.refl _
  | cons hrule _ ih =>
    simp only [issues, List.flatMap_cons, List.map_append] at ih ⊢
    exact (hrule tree skill).append ih

/-- Under stricter limits every rule covers itself under looser ones. -/
theorem covers_registry {strict loose : Limits} (h : strict.Looser loose) :
    List.Forall₂ Covers (registry strict) (registry loose) := by
  simp only [registry, List.forall₂_cons, List.forall₂_nil_left_iff, Covers.refl, true_and,
    and_true]
  exact ⟨covers_descriptionLength h.maxDescriptionChars,
    covers_lineCount h.minBodyLines h.maxBodyLines, covers_nonStandardHeaders h.markerScanLines⟩

/-- **Loosening limits never adds findings.**  What the rules report of a skill under looser limits
is reported under the stricter ones too: by the same checks, with the same weights, about the same
files, and in the same order. -/
theorem findings_run_registry {strict loose : Limits} (h : strict.Looser loose) (tree : FileTree)
    (skill : Skill) : ((run (registry loose) tree skill).1.map Issue.finding).Sublist
      ((run (registry strict) tree skill).1.map Issue.finding) :=
  map_finding_issues (covers_registry h) tree skill

/-- A document of two lines, and a reference with a marker phrase on its second line. -/
def shortTree : FileTree :=
  ⟨.dir [("s", .dir [(Schema.skillFile, .file
      "---\nname: s\ndescription: Use when writing\n---\nOne\nTwo\n".toUTF8),
    (Schema.referencesDir, .dir
      [("notes.md", .file "# Notes\nLoad when: writing\n".toUTF8)])])], []⟩

theorem findings_run_registry_shortTree :
    Limits.Looser ⟨3, 1, 15, 2⟩ ⟨2, 1, 16, 1⟩ ∧
    (run (registry ⟨2, 1, 16, 1⟩) shortTree (.ofDirectory ⟨"s"⟩ "s" .full)).1.map Issue.finding =
      [("metadata-fields", .error, some "s/SKILL.md"),
        ("core-workflow-steps", .warning, some "s/SKILL.md"),
        ("line-count", .warning, some "s/SKILL.md")] ∧
    ((run (registry ⟨2, 1, 16, 1⟩) shortTree (.ofDirectory ⟨"s"⟩ "s" .full)).1.map
      Issue.finding).Sublist
        ((run (registry ⟨3, 1, 15, 2⟩) shortTree (.ofDirectory ⟨"s"⟩ "s" .full)).1.map
          Issue.finding) := by
  have h : Limits.Looser ⟨3, 1, 15, 2⟩ ⟨2, 1, 16, 1⟩ :=
    ⟨by decide, by decide, by decide, by decide⟩
  exact ⟨h, by decide +kernel, findings_run_registry h shortTree (.ofDirectory ⟨"s"⟩ "s" .full)⟩

end Rule

end SkillLint
