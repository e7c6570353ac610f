import SkillLint.Proofs.FileTree.Beside
import SkillLint.Proofs.Rule.HeaderVerdict
import SkillLint.Proofs.Rule.References
import SkillLint.Proofs.Rule.Signature

/-!
# Documents that cannot be extracted

A document may be missing, unreadable, not delimited, or have a header that does not parse.  The
rule `readable` says so, once, and the other rules about the document have nothing to say
(`check_of_extraction_error`).  A document that was extracted is never complained about by the name
of that rule (`check_ne_yaml_of_ok`).

**The rules about references do not mind**: in a tree that is the same but for the document of the
skill (`SameButDocument`) they answer the same.
-/

namespace SkillLint.Rule

open FileTree

variable {rule : Rule} {limits : Limits} {tree tree' : FileTree} {skill : Skill}
  {reason : ExtractError} {doc : Document}

/-! ## One issue -/

/-- A rule about the document has nothing to say without one. -/
theorem silent_onDocument {name : String} {findings : FileTree → Skill → Document → List Finding}
    (h : skill.extraction tree = .error reason) :
    (onDocument name findings).check tree skill = [] := by
  simp only [onDocument, Skill.document?, h]
  rfl

/-- All rules about the document but the first are silent without one. -/
theorem check_of_extraction_error (h : skill.extraction tree = .error reason)
    (hrule : rule ∈ (registryFor limits (some .yaml)).tail) : rule.check tree skill = [] := by
  simp only [registryFor_yaml, List.tail_cons, List.mem_cons, List.not_mem_nil, or_false] at hrule
  rcases hrule with rfl | rfl | rfl | rfl | rfl | rfl | rfl | rfl | rfl | rfl | rfl
  all_goals exact silent_onDocument h

/-- **A failed extraction is reported once.** -/
theorem issues_of_extraction_error (limits : Limits) (h : skill.extraction tree = .error reason) :
    issues (registryFor limits (some .yaml)) tree skill =
      [⟨skill.id, "yaml", .error, extractMessage reason, some skill.documentPath.text⟩] := by
  have hread : readable.check tree skill =
      [⟨skill.id, "yaml", .error, extractMessage reason, some skill.documentPath.text⟩] := by
    simp only [readable, h]
    rfl
  have hrest : issues (registryFor limits (some .yaml)).tail tree skill = [] :=
    List.flatMap_eq_nil_iff.mpr fun _ hrule => check_of_extraction_error h hrule
  calc issues (registryFor limits (some .yaml)) tree skill
      = readable.check tree skill ++ issues (registryFor limits (some .yaml)).tail tree skill :=
        List.flatMap_cons
    _ = _ := by rw [hread, hrest, List.append_nil]

/-- A document that was extracted has no issue by the name of the rule about extraction. -/
theorem check_ne_yaml_of_ok (h : skill.extraction tree = .ok doc) {i : Issue}
    (hi : i ∈ issues (registryFor limits (some .yaml)) tree skill) : i.check ≠ "yaml" := by
  obtain ⟨rule, hrule, hi⟩ := List.mem_flatMap.mp hi
  have hmem : rule ∈ registry limits := (List.mem_filter.mp hrule).1
  intro hcheck
  have hname : rule.name = readable.name :=
    (signs_of_mem_registry hmem tree skill i hi).2.symm.trans hcheck
  obtain rfl : rule = readable :=
    List.inj_on_of_nodup_map (nodup_names_registry limits) hmem List.mem_cons_self hname
  simp only [readable, h, List.not_mem_nil] at hi

/-! ## The references -/

/-- **The trees are the same but for the document of the skill.** -/
inductive SameButDocument (skill : Skill) (tree tree' : FileTree) : Prop where
  /-- The document is there in one of the trees, as a file.  In the other it is a file, with
  whatever content, or is not there. -/
  | file (entry : List String)
      (hdocument : tree.locate skill.documentPath = .ok entry ∨
        tree'.locate skill.documentPath = .ok entry)
      (hfile : ∀ entries, tree.top.at? entry ≠ some (.dir entries))
      (hfile' : ∀ entries, tree'.top.at? entry ≠ some (.dir entries))
      (hbeside : SameBeside entry tree tree')
  /-- The directory of the skill is found in both trees, and there may be anything in the place of
  the document. -/
  | entry (base : List String)
      (hdir : tree.locate (skill.path.join ".") = .ok base)
      (hdir' : tree'.locate (skill.path.join ".") = .ok base)
      (hbeside : SameBeside (base ++ [Schema.skillFile]) tree tree')

/-- The directory of the skill is found in both trees in any case. -/
theorem SameButDocument.exists_base (h : SameButDocument skill tree tree') :
    ∃ base, tree.locate (skill.path.join ".") = .ok base ∧
      tree'.locate (skill.path.join ".") = .ok base ∧
      SameBeside (base ++ [Schema.skillFile]) tree tree' := by
  have hname : IsName Schema.skillFile := by decide
  cases h with
  | entry base hdir hdir' hbeside => exact ⟨base, hdir, hdir', hbeside⟩
  | file entry hdocument hfile hfile' hbeside =>
    rcases hdocument with hdocument | hdocument
    · obtain ⟨base, rfl, hdir, hdir'⟩ := hbeside.exists_base hname hfile hdocument
      exact ⟨base, hdir, hdir', hbeside⟩
    · obtain ⟨base, rfl, hdir', hdir⟩ := hbeside.symm.exists_base hname hfile' hdocument
      exact ⟨base, hdir, hdir', hbeside⟩

/-- The trees are alike below the directory of references. -/
theorem SameButDocument.references (h : SameButDocument skill tree tree') :
    AlikeBelow (fun _ => False) skill.referencesPath tree tree' := by
  obtain ⟨base, hdir, hdir', hbeside⟩ := h.exists_base
  exact hbeside.below_join hdir hdir' (by decide) (by decide)

/-- **A failed extraction is reported once, and by nothing else.**  If the document cannot be
extracted, the rules about it answer one issue, an error of the first rule about the path of the
document; if it can, none of their issues is of that rule.  Either way the rules about references
answer what they answer in any tree that is the same but for the document, whatever was read of it
before. -/
theorem extraction_reported_once (skill : Skill) (limits : Limits) (tree : FileTree)
    (htree : tree.WellFormed) :
    (∀ reason, skill.extraction tree = .error reason →
      issues (registryFor limits (some .yaml)) tree skill =
        [⟨skill.id, "yaml", .error, extractMessage reason,
          some (skill.path.join "SKILL.md").text⟩]) ∧
    (∀ doc, skill.extraction tree = .ok doc →
      ∀ i ∈ issues (registryFor limits (some .yaml)) tree skill, i.check ≠ "yaml") ∧
    ∀ tree', tree'.WellFormed → SameButDocument skill tree tree' → ∀ outcome,
      issues (registryFor limits (some .references)) tree' { skill with outcome := outcome } =
        issues (registryFor limits (some .references)) tree skill := by
  refine ⟨?failed, ?extracted, ?references⟩
  case failed => exact fun reason h => issues_of_extraction_error limits h
  case extracted => exact fun doc h i hi => check_ne_yaml_of_ok h hi
  case references =>
    intro tree' htree' hsame outcome
    -- What was read of the document is no concern of these rules.
    have hunread : issues (registryFor limits (some .references)) tree'
        { skill with outcome := outcome } =
          issues (registryFor limits (some .references)) tree' skill := rfl
    rw [hunread]
    exact (issues_references_congr limits hsame.references htree htree').symm

/-- A skill whose document was not written yet. -/
def unwrittenTree : FileTree :=
  (FileTree.empty []).writeFile ⟨"skills/a/references/x.md"⟩ "# Version 1".toUTF8

/-- Its document, without a header. -/
def headlessTree : FileTree := unwrittenTree.writeFile ⟨"skills/a/SKILL.md"⟩ "# A".toUTF8

/-- Its document, with a header that lacks most fields. -/
def writtenTree : FileTree :=
  unwrittenTree.writeFile ⟨"skills/a/SKILL.md"⟩ "---\nname: a\n---\n".toUTF8

theorem wellFormed_unwrittenTree : unwrittenTree.WellFormed :=
  (wellFormed_empty (List.forall_mem_nil _)).writeFile (by decide) _

/-- Its tree is the same with a document of any content. -/
theorem sameButDocument_unwrittenTree (content : ByteArray) :
    SameButDocument (.ofDirectory ⟨"skills/a"⟩ "a" .restricted)
      (unwrittenTree.writeFile ⟨"skills/a/SKILL.md"⟩ content) unwrittenTree := by
  have hbase : unwrittenTree.top.at? ["skills", "a"] =
      some (.dir [("references", .dir [("x.md", .file "# Version 1".toUTF8)])]) := rfl
  have hnames : unwrittenTree.names ⟨"skills/a/SKILL.md"⟩ = ["skills", "a"] ++ ["SKILL.md"] := rfl
  refine .file ["skills", "a", "SKILL.md"] (.inl rfl) ?written ?unwritten
    (sameBeside_change hbase hnames _).symm
  case written =>
    have hwritten : (unwrittenTree.writeFile ⟨"skills/a/SKILL.md"⟩ content).top.at?
        ["skills", "a", "SKILL.md"] = some (.file content) := rfl
    rw [hwritten]
    exact nofun
  case unwritten =>
    have hunwritten : unwrittenTree.top.at? ["skills", "a", "SKILL.md"] = none := rfl
    rw [hunwritten]
    exact nofun

theorem extraction_reported_once_headlessTree :
    issues (registryFor .default (some .yaml)) headlessTree
        (.ofDirectory ⟨"skills/a"⟩ "a" .restricted) =
      [⟨"a", "yaml", .error, "SKILL.md does not start with YAML frontmatter (---)",
        some "skills/a/SKILL.md"⟩] ∧
    (∀ i ∈ issues (registryFor .default (some .yaml)) writtenTree
        (.ofDirectory ⟨"skills/a"⟩ "a" .restricted), i.check ≠ "yaml") ∧
    issues (registryFor .default (some .references)) unwrittenTree
        (.ofDirectory ⟨"skills/a"⟩ "a" .restricted) =
      issues (registryFor .default (some .references)) headlessTree
        (.ofDirectory ⟨"skills/a"⟩ "a" .restricted) := by
  have hheadless : headlessTree.WellFormed :=
    wellFormed_unwrittenTree.writeFile (by decide) _
  have hwritten : writtenTree.WellFormed :=
    wellFormed_unwrittenTree.writeFile (by decide) _
  obtain ⟨hfailed, -, hreferences⟩ := extraction_reported_once
    (.ofDirectory ⟨"skills/a"⟩ "a" .restricted) .default headlessTree hheadless
  obtain ⟨-, hextracted, -⟩ := extraction_reported_once
    (.ofDirectory ⟨"skills/a"⟩ "a" .restricted) .default writtenTree hwritten
  refine ⟨hfailed (.split .noOpeningDelimiter) rfl, ?_,
    hreferences unwrittenTree wellFormed_unwrittenTree (sameButDocument_unwrittenTree _) none⟩
  have hok : ((Skill.ofDirectory ⟨"skills/a"⟩ "a" .restricted).extraction writtenTree).isOk := by
    decide
  cases h : (Skill.ofDirectory ⟨"skills/a"⟩ "a" .restricted).extraction writtenTree with
  | ok doc => exact hextracted doc h
  | error reason =>
    rw [h] at hok
    cases hok

end SkillLint.Rule
