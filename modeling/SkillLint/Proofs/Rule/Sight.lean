import Mathlib.Data.List.Basic
import SkillLint.Rule.Registry

/-!
# What rules see of a tree

A rule is given a whole tree, but looks at little of it: which paths exist and which are
directories, anywhere; the text of the document of the skill; and the markdown entries of its
directory of references, with their texts.  Where two trees are the same in all of this
(`Skill.SameIn`), **every rule of the registry answers the same** (`respects_of_mem_registry`).
-/

namespace SkillLint

/-- Everything that rules look at for the skill is the same in both trees. -/
structure Skill.SameIn (tree tree' : FileTree) (skill : Skill) : Prop where
  paths : tree.pathExists = tree'.pathExists
  dirs : tree.isDir = tree'.isDir
  document : tree.readText skill.documentPath = tree'.readText skill.documentPath
  references : Rule.markdownEntries tree skill.referencesPath =
    Rule.markdownEntries tree' skill.referencesPath
  texts : ∀ file ∈ Rule.markdownEntries tree skill.referencesPath,
    tree.readText file = tree'.readText file

namespace Rule

/-- The rule answers the same in trees that are the same to rules. -/
def Respects (rule : Rule) : Prop :=
  ∀ tree tree' skill, Skill.SameIn tree tree' skill → rule.check tree skill = rule.check tree' skill

/-! ## Documents -/

theorem extract_congr {tree tree' : FileTree} {parser : HeaderParser} {path : Path}
    (hpaths : tree.pathExists = tree'.pathExists)
    (htext : tree.readText path = tree'.readText path) :
    extract tree parser path = extract tree' parser path := by
  rw [extract, extract, hpaths, htext]

/-- The document is the same, whether it was read before or is read now. -/
theorem extraction_congr {tree tree' : FileTree} {skill : Skill}
    (h : Skill.SameIn tree tree' skill) : skill.extraction tree = skill.extraction tree' := by
  rw [Skill.extraction, Skill.extraction]
  cases skill.outcome with
  | some outcome => rfl
  | none => exact extract_congr h.paths h.document

/-- A rule about the document depends on what it finds there. -/
theorem respects_onDocument {name : String}
    {findings : FileTree → Skill → Document → List Finding}
    (hfindings : ∀ {tree tree' skill}, Skill.SameIn tree tree' skill →
      findings tree skill = findings tree' skill) :
    (onDocument name findings).Respects := by
  intro tree tree' skill h
  have hdocument : skill.document? tree = skill.document? tree' := by
    rw [Skill.document?, Skill.document?, extraction_congr h]
  simp only [onDocument, hdocument, hfindings h]

theorem respects_readable : readable.Respects := by
  intro tree tree' skill h
  simp only [readable, extraction_congr h]

/-- Related skills are looked for among the directories. -/
theorem respects_metadataFields : metadataFields.Respects :=
  respects_onDocument fun h => by simp only [relatedFindings, h.dirs]

/-! ## References -/

theorem respects_referencesDirectory : referencesDirectory.Respects := by
  intro tree tree' skill h
  simp only [referencesDirectory, h.paths, h.dirs]

theorem respects_referenceCount : referenceCount.Respects := by
  intro tree tree' skill h
  simp only [referenceCount, h.dirs, h.references]

theorem respects_nonStandardHeaders (scanLines : Nat) :
    (nonStandardHeaders scanLines).Respects := by
  intro tree tree' skill h
  simp only [nonStandardHeaders, h.dirs, ← h.references]
  split
  · refine List.flatMap_congr fun file hfile => ?_
    rw [h.texts file hfile]
  · rfl

/-! ## All rules -/

/-- **Every rule of the registry answers the same** in trees that are the same to rules. -/
theorem respects_of_mem_registry {rule : Rule} {limits : Limits} (hrule : rule ∈ registry limits) :
    rule.Respects := by
  simp only [registry, List.mem_cons, List.not_mem_nil, or_false] at hrule
  rcases hrule with rfl | rfl | rfl | rfl | rfl | rfl | rfl | rfl | rfl | rfl | rfl | rfl | rfl |
    rfl | rfl
  all_goals first
    | exact respects_readable
    | exact respects_metadataFields
    | exact respects_referencesDirectory
    | exact respects_referenceCount
    | exact respects_nonStandardHeaders _
    | exact respects_onDocument fun _ => rfl

/-- Rules of the registry find the same issues in trees that are the same to them. -/
theorem issues_congr {tree tree' : FileTree} {skill : Skill} {limits : Limits}
    {category : Option Category} (h : Skill.SameIn tree tree' skill) :
    issues (registryFor limits category) tree skill =
      issues (registryFor limits category) tree' skill :=
  List.flatMap_congr fun _ hrule =>
    respects_of_mem_registry (List.mem_filter.mp hrule).1 tree tree' skill h

end Rule

end SkillLint
