import SkillLint.Proofs.FileTree.Respelled
import SkillLint.Proofs.Rule.Session
import SkillLint.Proofs.Text.Cut

/-!
# Related skills and the directories next to a skill

The metadata of a skill list related skills, and each item should be the name of a directory next
to the directory of the skill (`hasDirectory`).  The rule joins an item to the path of the common
directory and asks whether that leads to a directory.  For a name this is the same question
(`isDir_join_eq_hasDirectory`), but an item is any text: dots, slashes and absolute paths lead to
directories too, and none of them is the name of a related skill.

So the rule never warns of a related skill, and it warns of all other items, each once and in order,
**exactly if no item that is not a name leads to a directory** (`reportsStrangers_iff`).  Two dots
are enough for a skill that is not there to pass (`not_reportsStrangers`).
-/

namespace SkillLint.Rule

open SkillLint.Text

variable {tree : FileTree} {skill : Skill} {doc : Document} {dir : Path} {name item s : String}
  {entries : List (String × FileTree.Node)} {metadata : Mapping}

/-- The directory has a directory of the name. -/
def hasDirectory (entries : List (String × FileTree.Node)) (name : String) : Bool :=
  entries.any fun (entry, node) => entry == name && node.isDir

/-- How a message about an item that is not the name of a related skill begins. -/
def strangerOpening : String := "'metadata.related-skills' references non-existent skill: '"

/-- What is said of an item that is not the name of a related skill. -/
def strangerMessage (item : String) : String := strangerOpening ++ item ++ "'"

/-- The warning about an item in the document. -/
def strangerIssue (skill : Skill) (doc : Document) (item : String) : Issue :=
  ⟨skill.id, "metadata-fields", .warning, strangerMessage item, some doc.path.text⟩

/-- The message is about such an item. -/
def isStrangerMessage (message : String) : Bool :=
  startsWith strangerOpening.toList message.toList

/-- **The items that are not names of directories are warned of**, each once and in the order in
which the text lists them, and no other items. -/
def ReportsStrangers (skill : Skill) (doc : Document) (entries : List (String × FileTree.Node))
    (s : String) (issues : List Issue) : Prop :=
  issues.filter (fun i => isStrangerMessage i.message) =
    ((listedNames s).filter fun item => !hasDirectory entries item).map (strangerIssue skill doc)

/-- The text of the header that lists related skills. -/
def relatedText? (doc : Document) : Option String :=
  (((doc.header.get? "metadata").bind Value.asMap?).bind (·.get? "related-skills")).bind
    Value.asString?

/-! ## Names of directories -/

theorem hasDirectory_eq_true_iff :
    hasDirectory entries name = true ↔ ∃ children, (name, .dir children) ∈ entries := by
  rw [hasDirectory, List.any_eq_true]
  constructor
  · rintro ⟨⟨entry, node⟩, hmem, hentry⟩
    obtain ⟨hname, hnode⟩ := (Bool.and_eq_true _ _).mp hentry
    obtain rfl := beq_iff_eq.mp hname
    cases node with
    | file content => cases hnode
    | dir children => exact ⟨children, hmem⟩
  · rintro ⟨children, hmem⟩
    exact ⟨_, hmem, by simp [FileTree.Node.isDir]⟩

/-- **A name leads to a directory** exactly if there is one of the name. -/
theorem isDir_join_eq_hasDirectory (htree : tree.WellFormed) (hname : IsName name)
    (hfind : tree.find dir = .ok (.dir entries)) :
    tree.isDir (dir.join name) = hasDirectory entries name := by
  rw [Bool.eq_iff_iff, FileTree.isDir_join_iff htree hname hfind, hasDirectory_eq_true_iff]

/-- Directories have names. -/
theorem isName_of_hasDirectory (htree : tree.WellFormed)
    (hfind : tree.find dir = .ok (.dir entries)) (h : hasDirectory entries name = true) :
    IsName name := by
  obtain ⟨children, hmem⟩ := hasDirectory_eq_true_iff.mp h
  exact (htree.find hfind).isName hmem

/-! ## Messages about the metadata -/

theorem strangerIssue_injective : Function.Injective (strangerIssue skill doc) := by
  intro item other h
  have hmessage : strangerMessage item = strangerMessage other := congrArg Issue.message h
  have htext := congrArg String.toList hmessage
  simp only [strangerMessage, String.toList_append, List.append_assoc, List.append_right_inj,
    List.append_left_inj] at htext
  exact String.toList_injective htext

theorem isStrangerMessage_strangerMessage (item : String) :
    isStrangerMessage (strangerMessage item) = true := by
  rw [isStrangerMessage, startsWith_eq_true_iff, strangerMessage, String.toList_append,
    String.toList_append, List.append_assoc]
  apply List.prefix_append

/-- A message that begins with another character is about something else. -/
theorem isStrangerMessage_append {c : Char} {before : List Char} {opening rest : String}
    (h : opening.toList = c :: before) (hc : c ≠ '\'') :
    isStrangerMessage (opening ++ rest) = false := by
  rw [← Bool.not_eq_true, isStrangerMessage, startsWith_eq_true_iff, String.toList_append, h]
  intro hprefix
  exact hc (List.cons_prefix_cons.mp hprefix).1.symm

theorem not_stranger_triggersFindings :
    ∀ f ∈ triggersFindings metadata, isStrangerMessage f.message = false := by
  intro f hf
  rw [triggersFindings] at hf
  split at hf
  · split at hf
    · cases hf
    · obtain rfl := List.mem_singleton.mp hf
      decide
  · cases hf

theorem not_stranger_domainFindings :
    ∀ f ∈ domainFindings metadata, isStrangerMessage f.message = false := by
  intro f hf
  rw [domainFindings] at hf
  split at hf
  · split at hf
    · cases hf
    · obtain rfl := List.mem_singleton.mp hf
      rw [Finding.warning, String.append_assoc, String.append_assoc]
      exact isStrangerMessage_append (c := 'U') rfl (by decide)
  · cases hf

theorem not_stranger_missingFindings (fields : List String) :
    ∀ f ∈ fields.map fun field => Finding.error ("Missing required metadata field: " ++ field),
      isStrangerMessage f.message = false := by
  intro f hf
  obtain ⟨field, -, rfl⟩ := List.mem_map.mp hf
  exact isStrangerMessage_append (c := 'M') rfl (by decide)

/-- Of the findings about the related skills, those about an item are the ones about the items that
lead to no directory. -/
theorem strangers_relatedFindings {siblings : Path}
    (h : metadata.get? "related-skills" = some (.string s)) :
    (relatedFindings tree siblings metadata).filter (fun f => isStrangerMessage f.message) =
      ((listedNames s).filter fun item => !tree.isDir (siblings.join item)).map fun item =>
        .warning (strangerMessage item) := by
  simp only [relatedFindings, h]
  by_cases hblank : isAllBlank s.toList = true
  · rw [if_pos hblank, listedNames_of_blank hblank]
    rfl
  · rw [if_neg hblank]
    refine List.filter_eq_self.mpr fun f hf => ?_
    obtain ⟨item, -, rfl⟩ := List.mem_map.mp hf
    exact isStrangerMessage_strangerMessage item

/-- The rule says what the related skills call for, and before it what is about other fields. -/
theorem exists_check_eq (hdoc : skill.document? tree = some doc)
    (hmetadata : (doc.header.get? "metadata").bind Value.asMap? = some metadata) :
    ∃ others, (∀ f ∈ others, isStrangerMessage f.message = false) ∧
      metadataFields.check tree skill =
        (others ++ relatedFindings tree skill.siblingsPath metadata).map
          (·.toIssue skill "metadata-fields" doc.path) := by
  obtain ⟨v, hv, hmap⟩ := Option.bind_eq_some_iff.mp hmetadata
  have hpresent : doc.header.present? "metadata" = some v := by
    refine Option.mem_def.mp (mem_present?_iff.mpr ⟨hv, ?_⟩)
    rintro rfl
    cases hmap
  refine ⟨_, ?_, by simp only [metadataFields, onDocument, hdoc, hpresent, hmap]; rfl⟩
  exact List.forall_mem_append.mpr ⟨List.forall_mem_append.mpr
    ⟨not_stranger_missingFindings _, not_stranger_triggersFindings⟩, not_stranger_domainFindings⟩

/-- **What the rule says of the items.** -/
theorem strangers_check (hdoc : skill.document? tree = some doc)
    (hrelated : relatedText? doc = some s) :
    (metadataFields.check tree skill).filter (fun i => isStrangerMessage i.message) =
      ((listedNames s).filter fun item => !tree.isDir (skill.siblingsPath.join item)).map
        (strangerIssue skill doc) := by
  obtain ⟨v, hv, hstring⟩ := Option.bind_eq_some_iff.mp hrelated
  obtain ⟨metadata, hmetadata, hget⟩ := Option.bind_eq_some_iff.mp hv
  cases v <;> cases hstring
  obtain ⟨others, hothers, hcheck⟩ := exists_check_eq hdoc hmetadata
  have hnone : others.filter (fun f => isStrangerMessage f.message) = [] :=
    List.filter_eq_nil_iff.mpr fun f hf => Bool.eq_false_iff.mp (hothers f hf)
  calc (metadataFields.check tree skill).filter (fun i => isStrangerMessage i.message)
      = ((others ++ relatedFindings tree skill.siblingsPath metadata).filter
          fun f => isStrangerMessage f.message).map
            (·.toIssue skill "metadata-fields" doc.path) := by rw [hcheck, List.filter_map]; rfl
    _ = ((listedNames s).filter fun item => !tree.isDir (skill.siblingsPath.join item)).map
          (strangerIssue skill doc) := by
        rw [List.filter_append, hnone, List.nil_append, strangers_relatedFindings hget,
          List.map_map]
        rfl

/-! ## Names that lead elsewhere -/

/-- **Exactly the items that are not names of directories are warned of** if no item that is not a
name leads to a directory, and only then. -/
theorem reportsStrangers_iff (htree : tree.WellFormed)
    (hfind : tree.find dir = .ok (.dir entries)) (hname : IsName name)
    (hpath : skill.path = dir.join name) (hdoc : skill.document? tree = some doc)
    (hrelated : relatedText? doc = some s) :
    ReportsStrangers skill doc entries s (metadataFields.check tree skill) ↔
      ∀ item ∈ listedNames s, ¬ IsName item → tree.isDir (dir.join item) = false := by
  have hdir : tree.isDir dir = true := FileTree.isDir_eq_true_iff.mpr ⟨entries, hfind⟩
  have hsibling : ∀ item ∈ listedNames s,
      tree.isDir (skill.siblingsPath.join item) = tree.isDir (dir.join item) := by
    intro item hitem
    have hne : item ≠ "" := of_decide_eq_true (List.mem_filter.mp hitem).2
    rw [Skill.siblingsPath, hpath]
    exact FileTree.isDir_parent_join_eq hdir hname hne
  have hlisted : ReportsStrangers skill doc entries s (metadataFields.check tree skill) ↔
      ∀ item ∈ listedNames s, tree.isDir (dir.join item) = hasDirectory entries item := by
    rw [ReportsStrangers, strangers_check hdoc hrelated,
      (List.map_injective_iff.mpr strangerIssue_injective).eq_iff]
    constructor
    · intro h item hitem
      have hmem : item ∈ (listedNames s).filter
            (fun item => !tree.isDir (skill.siblingsPath.join item)) ↔
          item ∈ (listedNames s).filter fun item => !hasDirectory entries item := by rw [h]
      simp only [List.mem_filter, hitem, true_and, hsibling item hitem] at hmem
      simpa using hmem
    · intro h
      refine List.filter_congr fun item hitem => ?_
      rw [hsibling item hitem, h item hitem]
  rw [hlisted]
  constructor
  · intro h item hitem hnot
    rw [h item hitem, ← Bool.not_eq_true]
    exact fun hentry => hnot (isName_of_hasDirectory htree hfind hentry)
  · intro h item hitem
    by_cases hitemName : IsName item
    · exact isDir_join_eq_hasDirectory htree hitemName hfind
    · rw [h item hitem hitemName, eq_comm, ← Bool.not_eq_true]
      exact fun hentry => hitemName (isName_of_hasDirectory htree hfind hentry)

/-- The directory `skills`: the skill `a`, whose document lists the related skills, and `b`. -/
def kinEntries (related : String) : List (String × FileTree.Node) :=
  [("a", .dir [(Schema.skillFile,
      .file ("---\nmetadata:\n  related-skills: " ++ related ++ "\n---").toUTF8)]), ("b", .dir [])]

/-- A tree with that directory. -/
def kinTree (related : String) : FileTree := ⟨.dir [("skills", .dir (kinEntries related))], []⟩

/-- The skill whose document lists the others. -/
def kinSkill : Skill := .ofDirectory ⟨"skills/a"⟩ "a" .full

theorem wellFormed_kinTree (related : String) : (kinTree related).WellFormed := by
  have hskill : ∀ content, (FileTree.Node.dir [(Schema.skillFile, .file content)]).WellFormed :=
    fun content => FileTree.Node.wellFormed_singleton (by decide) (.file content)
  have hskills : (FileTree.Node.dir (kinEntries related)).WellFormed := by
    refine .dir (show ["a", "b"].Nodup by decide) (by simp [kinEntries, IsName]) ?_
    simp [kinEntries, hskill, FileTree.Node.wellFormed_emptyDir]
  exact FileTree.Node.wellFormed_singleton (by decide) hskills

/-- A missing skill and a path that leads nowhere are both warned of. -/
theorem reportsStrangers_kinTree : (kinTree "b, c, ../x").WellFormed ∧
    (kinTree "b, c, ../x").find ⟨"skills"⟩ = .ok (.dir (kinEntries "b, c, ../x")) ∧
    IsName "a" ∧ kinSkill.path = (⟨"skills"⟩ : Path).join "a" ∧
    ∃ doc, kinSkill.document? (kinTree "b, c, ../x") = some doc ∧
      relatedText? doc = some "b, c, ../x" ∧
      ReportsStrangers kinSkill doc (kinEntries "b, c, ../x") "b, c, ../x"
        (metadataFields.check (kinTree "b, c, ../x") kinSkill) := by
  have hread : ∃ doc ∈ kinSkill.document? (kinTree "b, c, ../x"),
      relatedText? doc = some "b, c, ../x" := by
    decide +kernel
  obtain ⟨doc, hdoc, hrelated⟩ := hread
  have htree := wellFormed_kinTree "b, c, ../x"
  have hname : IsName "a" := by decide
  have hpath : kinSkill.path = (⟨"skills"⟩ : Path).join "a" := by decide
  refine ⟨htree, rfl, hname, hpath, doc, hdoc, hrelated, ?_⟩
  refine (reportsStrangers_iff htree rfl hname hpath hdoc hrelated).mpr ?_
  decide +kernel

/-- Two dots are not the name of a related skill, and nothing is said of them. -/
theorem not_reportsStrangers : ¬ ∀ (tree : FileTree) (dir : Path) (name : String) (skill : Skill)
    (entries : List (String × FileTree.Node)) (doc : Document) (s : String), tree.WellFormed →
      tree.find dir = .ok (.dir entries) → IsName name → skill.path = dir.join name →
      skill.document? tree = some doc → relatedText? doc = some s →
      ReportsStrangers skill doc entries s (metadataFields.check tree skill) := by
  intro h
  have hread : ∃ doc ∈ kinSkill.document? (kinTree ".."),
      relatedText? doc = some ".." := by
    decide +kernel
  obtain ⟨doc, hdoc, hrelated⟩ := hread
  have hreports := h _ ⟨"skills"⟩ "a" kinSkill (kinEntries "..") doc ".."
    (wellFormed_kinTree "..") rfl (by decide) (by decide) hdoc hrelated
  have hsilent : ((listedNames "..").filter fun item =>
      !(kinTree "..").isDir (kinSkill.siblingsPath.join item)) = [] := by
    decide +kernel
  have hstranger : ((listedNames "..").filter fun item => !hasDirectory (kinEntries "..") item) =
      [".."] := by
    decide +kernel
  rw [ReportsStrangers, strangers_check hdoc hrelated, hsilent, hstranger] at hreports
  cases hreports

end SkillLint.Rule
