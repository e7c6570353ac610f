import SkillLint.Proofs.FileTree.Respelled
import SkillLint.Proofs.Rule.LegacyMarkers
import SkillLint.Proofs.Rule.ModelDocument
import SkillLint.Proofs.Rule.References

/-!
# The model skill

A skill that starts from the model document should have nothing to complain about.  The rules about
the document find nothing in what is read of it (`issues_yaml_eq_nil`): the header has all fields
with known words, the related skill is the skill itself, the core workflow has five steps, and
there are ninety lines.  The rules about references ask for clean documents
(`issues_references_eq_nil`).

**All rules together are silent, for every name** that is an identifier without the delimiter in it
(`modelDocument_clean`): a name may be a number, and may start with hyphens or be one.
-/

namespace SkillLint.Rule

open SkillLint.Text SkillLint.Skill

variable {tree : FileTree} {skill : Skill} {doc : Document} {name related : String} {dir : Path}

/-! ## The document -/

/-- A rule about the document is silent if it finds nothing in it. -/
theorem check_onDocument_eq_nil {name : String}
    {findings : FileTree → Skill → Document → List Finding}
    (hdoc : skill.document? tree = some doc) (h : findings tree skill doc = []) :
    (onDocument name findings).check tree skill = [] := by
  simp only [onDocument, hdoc, h]
  rfl

/-- The document of the model skill, as it is read. -/
def modelParts (name related : String) (path : Path) : Document :=
  ⟨modelHeader name related, modelBody name, path⟩

theorem listedNames_of_identifier (h : Schema.Identifier name) : listedNames name = [name] := by
  rw [listedNames, List.splitOn_eq_singleton (h.notMem (by decide)), List.map_singleton,
    trim_eq_self h.trimmed, String.ofList_toList]
  simp [h.1]

/-- The related skill of the model document is looked for, and nothing else of the metadata depends
on the name or the tree. -/
theorem metadataFields_silent (hdoc : skill.document? tree = some (modelParts name related dir))
    (hrelated : Schema.Identifier related)
    (hdir : tree.isDir (skill.siblingsPath.join related) = true) :
    metadataFields.check tree skill = [] := by
  refine check_onDocument_eq_nil hdoc ?_
  have hblank : isAllBlank related.toList = false := by
    obtain ⟨c, rest, hchars⟩ := List.exists_cons_of_ne_nil hrelated.toList_ne_nil
    have hmem : c ∈ related.toList := hchars ▸ List.mem_cons_self
    exact Text.not_isAllBlank_of_mem hmem (hrelated.isBlank_eq_false hmem)
  have hfound : (([related]).filter fun name => !tree.isDir (skill.siblingsPath.join name)) = [] := by
    rw [List.filter_singleton, hdir]
    rfl
  show (if isAllBlank related.toList then [Finding.warning "'metadata.related-skills' is empty"]
    else ((listedNames related).filter fun name =>
      !tree.isDir (skill.siblingsPath.join name)).map fun name =>
        .warning ("'metadata.related-skills' references non-existent skill: '" ++ name ++ "'")) = []
  rw [if_neg (by rw [hblank]; exact Bool.false_ne_true), listedNames_of_identifier hrelated, hfound]
  rfl

theorem nameFormat_silent (hdoc : skill.document? tree = some (modelParts name related dir))
    (hname : Schema.Identifier name) (hid : name = skill.id) :
    nameFormat.check tree skill = [] := by
  refine check_onDocument_eq_nil hdoc ?_
  show (if name = "" then [] else
    (if isIdentifier name then [] else [Finding.error ("Invalid name format: '" ++ name ++
      "'. Use only letters, numbers, and hyphens.")]) ++
    (if name = skill.id then [] else [.warning ("Directory name '" ++ skill.id ++
      "' doesn't match skill name '" ++ name ++ "'")])) = []
  rw [if_neg hname.1, if_pos (isIdentifier_eq_true_iff.mpr hname), if_pos hid]
  rfl

theorem prefix_of_coreWorkflowHeading? (s r : List Char) (h : coreWorkflowHeading? s = some r) :
    "##".toList <+: s := by
  obtain ⟨rest, hrest, -⟩ := Option.bind_eq_some_iff.mp h
  exact ⟨rest, (dropPrefix?_eq_some_iff.mp hrest).symm⟩

theorem prefix_of_whenToUseHeading? (s r : List Char) (h : whenToUseHeading? s = some r) :
    "##".toList <+: s := by
  obtain ⟨rest, hrest, -⟩ := Option.bind_eq_some_iff.mp h
  exact ⟨rest, (dropPrefix?_eq_some_iff.mp hrest).symm⟩

theorem coreWorkflow_silent (hdoc : skill.document? tree = some (modelParts name related dir))
    (hname : Schema.Identifier name) : coreWorkflow.check tree skill = [] := by
  refine check_onDocument_eq_nil hdoc ?_
  have hsection := sectionAfter?_modelBody prefix_of_coreWorkflowHeading? (hname.notMem (by decide))
  have hsteps : (Markdown.sectionAfter? coreWorkflowHeading? ('\n' :: joinLines modelSections)).map
      (fun content => stepCount (splitLines content)) = some 5 := by decide
  obtain ⟨content, hcontent, hcount⟩ := Option.map_eq_some_iff.mp hsteps
  simp only [modelParts, hsection, hcontent, hcount]
  rfl

theorem whenToUse_silent (hdoc : skill.document? tree = some (modelParts name related dir))
    (hname : Schema.Identifier name) : whenToUse.check tree skill = [] := by
  refine check_onDocument_eq_nil hdoc ?_
  have hsection := sectionAfter?_modelBody prefix_of_whenToUseHeading? (hname.notMem (by decide))
  have hbullets : (Markdown.sectionAfter? whenToUseHeading? ('\n' :: joinLines modelSections)).map
      (fun content => ((splitLines (trim content)).filter isContentLine).countP (!isBullet ·)) =
        some 0 := by decide
  obtain ⟨content, hcontent, hcount⟩ := Option.map_eq_some_iff.mp hbullets
  simp only [modelParts, hsection, hcontent, hcount]
  rfl

theorem sectionOrder_silent (hdoc : skill.document? tree = some (modelParts name related dir))
    (hname : Schema.Identifier name) : sectionOrder.check tree skill = [] := by
  refine check_onDocument_eq_nil hdoc ?_
  have htitles : Markdown.titles false (splitLines (modelBody name).toList) =
      Markdown.titles false modelSections := by
    rw [splitLines_modelBody (hname.notMem (by decide))]
    rfl
  have horder : firstInversion? ((Markdown.titles false modelSections).filterMap fun title =>
      (sectionRank? (String.ofList title)).map fun rank => (rank, String.ofList title)) = none := by
    decide
  have hinversion : firstInversion? (knownSections (modelBody name)) = none := by
    rw [knownSections, htitles, horder]
  simp only [modelParts, hinversion]

theorem lineCount_silent (hdoc : skill.document? tree = some (modelParts name related dir))
    (hname : Schema.Identifier name) :
    (lineCount Limits.default.minBodyLines Limits.default.maxBodyLines).check tree skill = [] := by
  refine check_onDocument_eq_nil hdoc ?_
  simp only [modelParts, filledLines_modelBody (hname.notMem (by decide))]
  rfl

/-- **The rules about the document find nothing** in the model document. -/
theorem issues_yaml_eq_nil (hread : skill.extraction tree = .ok (modelParts name related dir))
    (hname : Schema.Identifier name) (hid : name = skill.id) (hrelated : Schema.Identifier related)
    (hdir : tree.isDir (skill.siblingsPath.join related) = true) :
    issues (registryFor .default (some .yaml)) tree skill = [] := by
  have hdoc : skill.document? tree = some (modelParts name related dir) := by
    rw [Skill.document?, hread]
    rfl
  have hall : ∀ rule ∈ registryFor .default (some .yaml), rule.check tree skill = [] := by
    rw [registryFor_yaml]
    simp only [List.forall_mem_cons]
    exact ⟨check_readable hdoc, check_onDocument_eq_nil hdoc rfl,
      metadataFields_silent hdoc hrelated hdir, nameFormat_silent hdoc hname hid,
      check_onDocument_eq_nil hdoc rfl, check_onDocument_eq_nil hdoc rfl,
      check_onDocument_eq_nil hdoc rfl, check_onDocument_eq_nil hdoc rfl,
      coreWorkflow_silent hdoc hname, whenToUse_silent hdoc hname, sectionOrder_silent hdoc hname,
      lineCount_silent hdoc hname, List.forall_mem_nil _⟩
  exact List.flatMap_eq_nil_iff.mpr hall

/-- **The model document is extracted** by the restricted parser. -/
theorem extract_modelDocument {path : Path}
    (hread : tree.readText path = .ok (modelDocument name related))
    (hname : Schema.Identifier name) (hrelated : Schema.Identifier related)
    (hhyphens : ¬ Header.delimiter.toList <:+: name.toList)
    (hhyphens' : ¬ Header.delimiter.toList <:+: related.toList) :
    extract tree .restricted path = .ok (modelParts name related path) := by
  have hexists : tree.pathExists path = true := FileTree.pathExists_of_readText hread
  have hheader : HeaderParser.restricted.parse (modelHeaderText name related) =
      .ok (modelHeader name related) := by
    rw [HeaderParser.parse_restricted_ok,
      parse_modelHeaderText hname.isScalar hname.toList_ne_nil hrelated.isScalar]
  simp only [extract, hexists, hread, split_modelDocument hhyphens hhyphens', hheader]
  rfl

/-! ## The references -/

/-- A reference document can be read, and none of the marker phrases is in one of its first ten
lines. -/
def CleanReference (tree : FileTree) (file : Path) : Prop :=
  ∃ text, tree.readText file = .ok text ∧ ∀ line ∈ (splitLines text.toList).take 10,
    ∀ marker ∈ Schema.nonStandardMarkers, ¬ marker.toList <:+: line

/-- There are no findings about a clean document. -/
theorem markerFindings_of_clean {file : Path} (h : CleanReference tree file) :
    markerFindings Limits.default.markerScanLines (tree.readText file) = [] := by
  obtain ⟨text, hread, hlines⟩ := h
  have hmarkers : markersIn (topLines Limits.default.markerScanLines text) = [] := by
    rw [markersIn_topLines]
    refine List.filter_eq_nil_iff.mpr fun marker hmarker hoccurs => ?_
    obtain ⟨line, hline, hinfix⟩ := of_decide_eq_true hoccurs
    exact hlines line hline marker hmarker hinfix
  simp only [hread, markerFindings, hmarkers]

/-- **The rules about references find nothing** in a directory with clean documents, and at least
one of them. -/
theorem issues_references_eq_nil {paths : List Path}
    (hlist : tree.list skill.referencesPath = .ok paths)
    (hsome : ∃ p ∈ paths, p.extension? = some "md")
    (hclean : ∀ p ∈ paths, p.extension? = some "md" → CleanReference tree p) :
    issues (registryFor .default (some .references)) tree skill = [] := by
  have hdir : tree.isDir skill.referencesPath = true := FileTree.isDir_of_list hlist
  have hexists : tree.pathExists skill.referencesPath = true :=
    FileTree.pathExists_of_isDir hdir
  have hentries : ∀ p, p ∈ markdownEntries tree skill.referencesPath ↔
      p ∈ paths ∧ p.extension? = some "md" := by
    intro p
    rw [markdownEntries, hlist, Path.mem_sort, List.mem_filter, beq_iff_eq]
  have hnonempty : markdownEntries tree skill.referencesPath ≠ [] := by
    obtain ⟨p, hp⟩ := hsome
    exact List.ne_nil_of_mem ((hentries p).mpr hp)
  have hdirectory : referencesDirectory.check tree skill = [] := by
    simp [referencesDirectory, hexists, hdir]
  have hcount : referenceCount.check tree skill = [] := by
    simp [referenceCount, hnonempty]
  have hmarkers : (nonStandardHeaders Limits.default.markerScanLines).check tree skill = [] := by
    simp only [nonStandardHeaders, hdir, if_true]
    refine List.flatMap_eq_nil_iff.mpr fun file hfile => ?_
    obtain ⟨hlisted, hextension⟩ := (hentries file).mp hfile
    rw [markerFindings_of_clean (hclean file hlisted hextension)]
    rfl
  rw [registryFor_references]
  simp only [issues, List.flatMap_cons, List.flatMap_nil, hdirectory, hcount, hmarkers,
    List.append_nil]

/-! ## The model skill -/

/-- The rules about the document come first. -/
theorem registry_eq_append (limits : Limits) : registry limits =
    registryFor limits (some .yaml) ++ registryFor limits (some .references) := rfl

/-- **The model document passes all rules, whatever the name.**  If the name is an identifier without
three hyphens in a row, the document that is written for it is that of a skill of the name, and the
skill has a directory of clean reference documents, the rules find nothing, under the limits that
hold unless configured and with the restricted parser. -/
theorem modelDocument_clean (dir : Path) (name : String) (hname : Schema.Identifier name)
    (hhyphens : ¬ "---".toList <:+: name.toList) (tree : FileTree)
    (hdocument : tree.readText ((dir.join name).join "SKILL.md") = .ok (modelDocument name name))
    (paths : List Path) (hlist : tree.list ((dir.join name).join "references") = .ok paths)
    (hsome : ∃ p ∈ paths, p.extension? = some "md")
    (hclean : ∀ p ∈ paths, p.extension? = some "md" → CleanReference tree p) :
    issues (registry .default) tree (.ofDirectory (dir.join name) name .restricted) = [] := by
  have hextracted : (Skill.ofDirectory (dir.join name) name .restricted).extraction tree =
      .ok (modelParts name name ((dir.join name).join "SKILL.md")) :=
    extract_modelDocument hdocument hname hname hhyphens hhyphens
  -- The related skill is the skill itself, found through the parent of its path.
  have hsibling : tree.isDir
      ((Skill.ofDirectory (dir.join name) name .restricted).siblingsPath.join name) = true :=
    FileTree.isDir_parent_join hname.isName (by decide : IsName "SKILL.md")
      (FileTree.pathExists_of_readText hdocument)
  have hyaml : issues (registryFor .default (some .yaml)) tree
      (.ofDirectory (dir.join name) name .restricted) = [] :=
    issues_yaml_eq_nil hextracted hname rfl hname hsibling
  have hreferences : issues (registryFor .default (some .references)) tree
      (.ofDirectory (dir.join name) name .restricted) = [] :=
    issues_references_eq_nil hlist hsome hclean
  rw [issues] at hyaml hreferences
  rw [registry_eq_append, issues, List.flatMap_append, hyaml, hreferences, List.append_nil]

/-- A skill with the shortest of the odd names, with its model document and one reference. -/
def hyphenTree : FileTree :=
  ((FileTree.empty []).writeFile ⟨"skills/-/SKILL.md"⟩ (modelDocument "-" "-").toUTF8).writeFile
    ⟨"skills/-/references/notes.md"⟩ "# Notes".toUTF8

theorem modelDocument_clean_hyphen :
    issues (registry .default) hyphenTree
      (.ofDirectory (Path.join ⟨"skills"⟩ "-") "-" .restricted) = [] := by
  have hdocument : hyphenTree.readText ((Path.join ⟨"skills"⟩ "-").join "SKILL.md") =
      .ok (modelDocument "-" "-") := FileTree.readText_of_find rfl
  have hnotes : hyphenTree.readText ⟨"skills/-/references/notes.md"⟩ = .ok "# Notes" :=
    FileTree.readText_of_find rfl
  have hclean : CleanReference hyphenTree ⟨"skills/-/references/notes.md"⟩ :=
    ⟨"# Notes", hnotes, by decide⟩
  refine modelDocument_clean ⟨"skills"⟩ "-" (by decide) (by decide) hyphenTree hdocument
    [⟨"skills/-/references/notes.md"⟩] rfl ⟨_, List.mem_singleton_self _, by decide⟩ ?_
  exact List.forall_mem_singleton.mpr fun _ => hclean

end SkillLint.Rule
