import Mathlib.Tactic.Tauto
import SkillLint.FileTree.Build
import SkillLint.Proofs.Rule.Advice

/-!
# Which headers block

`Schema.ValidHeader` says what the schema asks of a header: an identifier as name, a
description, and metadata with all of their fields, among them triggers that are not blank.
The rules of the category `yaml` ask a little less (`HeaderPasses`), and **they report no
error about a document if and only if its header has just that**
(`noErrors_yamlRules_iff`), whatever the body, the limits and the other skills.

So a valid header never blocks (`noErrors_of_validHeader`).  A header that does not block
need not be valid: a key counts as declared even with the value null, the rules about values
pass over null, and that about names passes over the empty text.  **What such a header can
lack is a name or triggers, and nothing else** (`validHeader_iff_of_noErrors`,
`not_validHeader_of_noErrors`).
-/

namespace SkillLint

open SkillLint.Text

/-! ## The schema -/

namespace Schema

/-- A text of letters, digits and hyphens of ASCII, at least one of them. -/
def Identifier (s : String) : Prop :=
  s ≠ "" ∧ ∀ c ∈ s.toList,
    ('a' ≤ c ∧ c ≤ 'z') ∨ ('A' ≤ c ∧ c ≤ 'Z') ∨ ('0' ≤ c ∧ c ≤ '9') ∨ c = '-'

/-- A string that is not blank. -/
def FilledString (v : Value) : Prop := ∃ s, v = .string s ∧ isAllBlank s.toList = false

/-- Null, or a string. -/
def OptionalString (v : Value) : Prop := v = .null ∨ ∃ s, v = .string s

/-- What the schema asks of metadata. -/
structure ValidMetadata (metadata : Mapping) : Prop where
  declared : ∀ field ∈ requiredMetadataFields, metadata.contains field = true
  triggers : ∃ v ∈ metadata.get? "triggers", FilledString v
  related : ∃ v ∈ metadata.get? "related-skills", OptionalString v

/-- **What the schema asks of a header.** -/
structure ValidHeader (header : Mapping) : Prop where
  name : ∃ v ∈ header.get? "name", ∃ text ∈ v.scalarText?, Identifier text
  description : header.contains "description" = true
  metadata : ∃ v ∈ header.get? "metadata", ∃ metadata ∈ v.asMap?, ValidMetadata metadata

-- by the characters of the text: a search through all characters decides this as well
instance (s : String) : Decidable (Identifier s) :=
  decidable_of_iff
    (s ≠ "" ∧ s.toList.all fun c =>
      ('a' ≤ c ∧ c ≤ 'z') ∨ ('A' ≤ c ∧ c ≤ 'Z') ∨ ('0' ≤ c ∧ c ≤ '9') ∨ c = '-')
    (by simp only [Identifier, List.all_eq_true, decide_eq_true_iff])

instance : DecidablePred FilledString
  | .string s => decidable_of_iff (isAllBlank s.toList = false) (by simp [FilledString])
  | .null | .bool _ | .int _ | .float _ | .list _ | .map _ => isFalse (by simp [FilledString])

instance : DecidablePred OptionalString
  | .null | .string _ => isTrue (by simp [OptionalString])
  | .bool _ | .int _ | .float _ | .list _ | .map _ => isFalse (by simp [OptionalString])

instance (metadata : Mapping) : Decidable (ValidMetadata metadata) :=
  decidable_of_iff
    ((∀ field ∈ requiredMetadataFields, metadata.contains field = true) ∧
      (∃ v ∈ metadata.get? "triggers", FilledString v) ∧
      ∃ v ∈ metadata.get? "related-skills", OptionalString v)
    ⟨fun ⟨hd, ht, hr⟩ => ⟨hd, ht, hr⟩, fun ⟨hd, ht, hr⟩ => ⟨hd, ht, hr⟩⟩

instance (header : Mapping) : Decidable (ValidHeader header) :=
  decidable_of_iff
    ((∃ v ∈ header.get? "name", ∃ text ∈ v.scalarText?, Identifier text) ∧
      header.contains "description" = true ∧
      ∃ v ∈ header.get? "metadata", ∃ metadata ∈ v.asMap?, ValidMetadata metadata)
    ⟨fun ⟨hn, hd, hm⟩ => ⟨hn, hd, hm⟩, fun ⟨hn, hd, hm⟩ => ⟨hn, hd, hm⟩⟩

end Schema

namespace Rule

open Schema

/-! ## What the rules ask -/

/-- What the rules ask of metadata. -/
structure MetadataPasses (metadata : Mapping) : Prop where
  declared : ∀ field ∈ requiredMetadataFields, metadata.contains field = true
  triggers : ∀ v ∈ metadata.present? "triggers", FilledString v
  related : ∀ v ∈ metadata.get? "related-skills", OptionalString v

/-- **What the rules ask of a header.** -/
structure HeaderPasses (header : Mapping) : Prop where
  declared : ∀ field ∈ Schema.requiredFields, header.contains field = true
  name : ∀ v ∈ header.present? "name",
    ∃ text ∈ v.scalarText?, text ≠ "" → Identifier text
  metadata : ∃ v ∈ header.get? "metadata", ∃ metadata ∈ v.asMap?, MetadataPasses metadata

instance (metadata : Mapping) : Decidable (MetadataPasses metadata) :=
  decidable_of_iff
    ((∀ field ∈ requiredMetadataFields, metadata.contains field = true) ∧
      (∀ v ∈ metadata.present? "triggers", FilledString v) ∧
      ∀ v ∈ metadata.get? "related-skills", OptionalString v)
    ⟨fun ⟨hd, ht, hr⟩ => ⟨hd, ht, hr⟩, fun ⟨hd, ht, hr⟩ => ⟨hd, ht, hr⟩⟩

instance (header : Mapping) : Decidable (HeaderPasses header) :=
  decidable_of_iff
    ((∀ field ∈ Schema.requiredFields, header.contains field = true) ∧
      (∀ v ∈ header.present? "name", ∃ text ∈ v.scalarText?, text ≠ "" → Identifier text) ∧
      ∃ v ∈ header.get? "metadata", ∃ metadata ∈ v.asMap?, MetadataPasses metadata)
    ⟨fun ⟨hd, hn, hm⟩ => ⟨hd, hn, hm⟩, fun ⟨hd, hn, hm⟩ => ⟨hd, hn, hm⟩⟩

variable {tree : FileTree} {skill : Skill} {doc : Document} {header metadata : Mapping}

theorem isIdentifierChar_eq_true_iff {c : Char} : isIdentifierChar c = true ↔
    ('a' ≤ c ∧ c ≤ 'z') ∨ ('A' ≤ c ∧ c ≤ 'Z') ∨ ('0' ≤ c ∧ c ≤ '9') ∨ c = '-' := by
  have hchar : isIdentifierChar c = ((decide ('A' ≤ c ∧ c ≤ 'Z') || ('a' ≤ c && c ≤ 'z')) ||
      ('0' ≤ c && c ≤ '9') || c == '-') := rfl
  rw [hchar]
  simp only [Bool.or_eq_true, Bool.and_eq_true, decide_eq_true_iff, beq_iff_eq]
  tauto

theorem isIdentifier_eq_true_iff {s : String} : isIdentifier s = true ↔ Identifier s := by
  simp only [isIdentifier, Bool.and_eq_true, decide_eq_true_eq, List.all_eq_true,
    isIdentifierChar_eq_true_iff, Identifier]

theorem isFilledString_eq_true_iff {v : Value} : isFilledString v = true ↔ FilledString v := by
  cases v <;> simp [isFilledString, FilledString]

/-! ## Verdicts -/

/-- The rule that a document can be read has nothing to say about one that was read. -/
theorem check_readable (hdoc : skill.document? tree = some doc) : readable.check tree skill = [] := by
  rw [Skill.document?] at hdoc
  cases hextraction : skill.extraction tree with
  | error reason =>
    rw [hextraction] at hdoc
    cases hdoc
  | ok d => simp only [readable, hextraction]

theorem missingFields_eq_nil_iff {fields : List String} : missingFields fields header = [] ↔
    ∀ field ∈ fields, header.contains field = true := by
  rw [missingFields, List.filter_eq_nil_iff]
  simp

theorem noErrors_requiredFields_iff (hdoc : skill.document? tree = some doc) :
    NoErrors (requiredFields.check tree skill) ↔
      ∀ field ∈ Schema.requiredFields, doc.header.contains field = true := by
  rw [requiredFields, noErrors_onDocument hdoc, advises_map_error, missingFields_eq_nil_iff]

theorem advises_triggersFindings_iff : Advises (triggersFindings metadata) ↔
    ∀ v ∈ metadata.present? "triggers", FilledString v := by
  rw [triggersFindings]
  cases metadata.present? "triggers" with
  | none => simp
  | some v => simp [← isFilledString_eq_true_iff]

theorem advises_domainFindings : Advises (domainFindings metadata) := by
  rw [domainFindings]
  cases metadata.present? "domain" with
  | none => simp
  | some v => simp

theorem advises_relatedFindings_iff {siblings : Path} :
    Advises (relatedFindings tree siblings metadata) ↔
      ∀ v ∈ metadata.get? "related-skills", OptionalString v := by
  rw [relatedFindings]
  cases metadata.get? "related-skills" with
  | none => simp
  | some v =>
    cases v with
    | null => simp [OptionalString]
    | string s =>
      dsimp only
      split <;> simp [OptionalString]
    | bool _ | int _ | float _ | list _ | map _ => simp [OptionalString]

/-- The metadata pass if each group of findings about them does. -/
theorem advises_metadata_iff {siblings : Path} :
    Advises ((missingFields requiredMetadataFields metadata).map (fun field =>
        .error ("Missing required metadata field: " ++ field)) ++
      triggersFindings metadata ++ domainFindings metadata ++
      relatedFindings tree siblings metadata) ↔ MetadataPasses metadata := by
  simp only [advises_append, advises_map_error, missingFields_eq_nil_iff,
    advises_triggersFindings_iff, advises_domainFindings, advises_relatedFindings_iff, and_true]
  constructor
  · rintro ⟨⟨hdeclared, htriggers⟩, hrelated⟩
    exact ⟨hdeclared, htriggers, hrelated⟩
  · rintro ⟨hdeclared, htriggers, hrelated⟩
    exact ⟨⟨hdeclared, htriggers⟩, hrelated⟩

theorem noErrors_metadataFields_iff (hdoc : skill.document? tree = some doc) :
    NoErrors (metadataFields.check tree skill) ↔
      ∃ v ∈ doc.header.get? "metadata", ∃ metadata ∈ v.asMap?, MetadataPasses metadata := by
  rw [metadataFields, noErrors_onDocument hdoc, Mapping.present?]
  cases doc.header.get? "metadata" with
  | none => simp
  | some v =>
    cases v with
    | map entries =>
      refine Iff.trans advises_metadata_iff ?_
      simp [Value.asMap?]
    | null | bool _ | int _ | float _ | string _ | list _ =>
      show Advises [_] ↔ _
      simp [Value.asMap?]

theorem noErrors_nameFormat_iff (hdoc : skill.document? tree = some doc) :
    NoErrors (nameFormat.check tree skill) ↔ ∀ v ∈ doc.header.present? "name",
      ∃ text ∈ v.scalarText?, text ≠ "" → Identifier text := by
  rw [nameFormat, noErrors_onDocument hdoc]
  cases doc.header.present? "name" with
  | none => simp
  | some v =>
    simp only [Option.mem_some_iff, forall_eq']
    cases v.scalarText? with
    | none => simp
    | some text =>
      simp only [Option.mem_some_iff, exists_eq_left', ← isIdentifier_eq_true_iff]
      by_cases hempty : text = ""
      · simp [hempty]
      · simp [hempty]

/-- The rules of the category `yaml`. -/
theorem registryFor_yaml (limits : Limits) : registryFor limits (some .yaml) =
    [readable, requiredFields, metadataFields, nameFormat,
      descriptionLength limits.maxDescriptionChars, descriptionFormat,
      metadataWord Scope "scope-enum" "scope",
      metadataWord OutputFormat "output-format-enum" "output-format",
      coreWorkflow, whenToUse, sectionOrder, lineCount limits.minBodyLines limits.maxBodyLines] :=
  rfl

/-- **The verdict on a header**: the rules of the category `yaml` report no error about a
document if and only if its header has what they ask for. -/
theorem noErrors_yamlRules_iff (limits : Limits) (hdoc : skill.document? tree = some doc) :
    NoErrors (issues (registryFor limits (some .yaml)) tree skill) ↔ HeaderPasses doc.header := by
  have hread : NoErrors (readable.check tree skill) := by
    rw [check_readable hdoc]
    exact fun _ hi => absurd hi List.not_mem_nil
  simp only [issues, noErrors_flatMap, registryFor_yaml, List.forall_mem_cons, List.not_mem_nil,
    false_imp_iff, implies_true, and_true, hread, true_and, noErrors_requiredFields_iff hdoc,
    noErrors_metadataFields_iff hdoc, noErrors_nameFormat_iff hdoc,
    neverBlocks_descriptionLength _ tree skill, neverBlocks_descriptionFormat tree skill,
    neverBlocks_metadataWord _ _ _ tree skill, neverBlocks_coreWorkflow tree skill,
    neverBlocks_whenToUse tree skill, neverBlocks_sectionOrder tree skill,
    neverBlocks_lineCount _ _ tree skill]
  constructor
  · rintro ⟨hdeclared, hmetadata, hname⟩
    exact ⟨hdeclared, hname, hmetadata⟩
  · rintro ⟨hdeclared, hname, hmetadata⟩
    exact ⟨hdeclared, hmetadata, hname⟩

/-! ## Rules and schema -/

/-- The header gives a name that is not empty, and its triggers are not null. -/
def NamesTriggers (header : Mapping) : Prop :=
  header.text "name" ≠ "" ∧
    ∀ v ∈ header.get? "metadata", ∀ metadata ∈ v.asMap?, metadata.get? "triggers" ≠ some .null

theorem mem_present?_iff {key : String} {v : Value} :
    v ∈ header.present? key ↔ v ∈ header.get? key ∧ v ≠ .null := by
  rw [Mapping.present?, Option.mem_def, Option.filter_eq_some_iff]
  cases v <;> simp [Value.isNull]

theorem validMetadata_iff : ValidMetadata metadata ↔
    MetadataPasses metadata ∧ metadata.get? "triggers" ≠ some .null := by
  constructor
  · rintro ⟨hdeclared, ⟨v, hv, hfilled⟩, ⟨u, hu, hoptional⟩⟩
    refine ⟨⟨hdeclared, fun w hw => ?_, fun w hw => ?_⟩, ?_⟩
    · rwa [Option.mem_unique (mem_present?_iff.mp hw).1 hv]
    · rwa [Option.mem_unique hw hu]
    · rw [hv]
      rintro ⟨⟩
      obtain ⟨s, hs, -⟩ := hfilled
      cases hs
  · rintro ⟨⟨hdeclared, htriggers, hrelated⟩, hnull⟩
    -- both fields are declared, so there are values to speak about
    obtain ⟨v, hv⟩ := Option.isSome_iff_exists.mp (hdeclared "triggers" (by decide))
    obtain ⟨u, hu⟩ := Option.isSome_iff_exists.mp (hdeclared "related-skills" (by decide))
    have hpresent : v ≠ .null := fun he => hnull (he ▸ hv)
    exact ⟨hdeclared, ⟨v, hv, htriggers v (mem_present?_iff.mpr ⟨hv, hpresent⟩)⟩,
      ⟨u, hu, hrelated u hu⟩⟩

/-- **A header is valid if and only if it passes and has a name and triggers.** -/
theorem validHeader_iff : ValidHeader header ↔ HeaderPasses header ∧ NamesTriggers header := by
  constructor
  · rintro ⟨⟨v, hv, text, htext, hname⟩, hdescription, ⟨u, hu, metadata, hmap, hvalid⟩⟩
    obtain ⟨hpasses, hnull⟩ := validMetadata_iff.mp hvalid
    refine ⟨⟨?_, fun w hw => ?_, ⟨u, hu, metadata, hmap, hpasses⟩⟩, ?_, fun w hw m hm => ?_⟩
    · intro field hfield
      have hcases : field = "name" ∨ field = "description" := by
        simpa [Schema.requiredFields] using hfield
      rcases hcases with rfl | rfl
      · exact Option.isSome_iff_exists.mpr ⟨v, hv⟩
      · exact hdescription
    · rw [Option.mem_unique (mem_present?_iff.mp hw).1 hv]
      exact ⟨text, htext, fun _ => hname⟩
    · rw [Mapping.text, hv, Option.bind_some, htext]
      exact hname.1
    · obtain rfl := Option.mem_unique hw hu
      rwa [Option.mem_unique hm hmap]
  · rintro ⟨⟨hdeclared, hshape, ⟨u, hu, metadata, hmap, hpasses⟩⟩, hname, htriggers⟩
    obtain ⟨v, hv⟩ := Option.isSome_iff_exists.mp (hdeclared "name" (by decide))
    rw [Mapping.text, hv, Option.bind_some] at hname
    have hpresent : v ≠ .null := by
      rintro rfl
      exact hname rfl
    obtain ⟨text, htext, hidentifier⟩ := hshape v (mem_present?_iff.mpr ⟨hv, hpresent⟩)
    rw [htext] at hname
    exact ⟨⟨v, hv, text, htext, hidentifier hname⟩, hdeclared "description" (by decide),
      ⟨u, hu, metadata, hmap, validMetadata_iff.mpr ⟨hpasses, htriggers u hu metadata hmap⟩⟩⟩

/-! ## Verdicts on headers -/

/-- A tree with one skill, whose document has the header and no body. -/
def headerTree (header : String) : FileTree :=
  (FileTree.empty []).writeFile ⟨"s/SKILL.md"⟩ ("---\n" ++ header ++ "---").toUTF8

/-- The skill of that tree. -/
def headerSkill : Skill := .ofDirectory ⟨"s"⟩ "s" .full

/-- A header with all keys, and with the fewest and oddest values that a valid one can have. -/
def oddHeader : String :=
  "\x7bname: -1, description, metadata: \x7btriggers: '0', role, scope: [], output-format: true, " ++
    "domain: \x7b\x7d, related-skills\x7d\x7d\n"

/-- A header with all keys and no values. -/
def nullHeader : String :=
  "\x7bname, description, metadata: \x7btriggers, role, scope, output-format, domain, " ++
    "related-skills\x7d\x7d\n"

/-- **A valid header never blocks**: no rule about the document reports an error. -/
theorem noErrors_of_validHeader (limits : Limits) (hdoc : skill.document? tree = some doc)
    (hvalid : ValidHeader doc.header) :
    ∀ rule ∈ registry limits, rule.category = .yaml → NoErrors (rule.check tree skill) := by
  have hissues := (noErrors_yamlRules_iff limits hdoc).mpr (validHeader_iff.mp hvalid).1
  rw [issues, noErrors_flatMap] at hissues
  intro rule hrule hcategory
  exact hissues rule (List.mem_filter.mpr ⟨hrule, by simp [hcategory]⟩)

theorem noErrors_oddHeader : ∃ doc, headerSkill.document? (headerTree oddHeader) = some doc ∧
    ValidHeader doc.header ∧ ∀ rule ∈ registry .default, rule.category = .yaml →
      NoErrors (rule.check (headerTree oddHeader) headerSkill) := by
  have hvalid : ∃ doc ∈ headerSkill.document? (headerTree oddHeader), ValidHeader doc.header := by
    decide +kernel
  obtain ⟨doc, hdoc, hvalid⟩ := hvalid
  exact ⟨doc, hdoc, hvalid, noErrors_of_validHeader .default hdoc hvalid⟩

/-- **What a header without errors can lack.**  It has what the rules ask for, and it is valid
exactly if it has a name and triggers. -/
theorem validHeader_iff_of_noErrors (limits : Limits) (hdoc : skill.document? tree = some doc)
    (h : NoErrors (issues (registryFor limits (some .yaml)) tree skill)) :
    HeaderPasses doc.header ∧ (ValidHeader doc.header ↔ NamesTriggers doc.header) := by
  have hpasses := (noErrors_yamlRules_iff limits hdoc).mp h
  exact ⟨hpasses, validHeader_iff.trans (and_iff_right hpasses)⟩

/-- The document with these keys is read, and its header passes without being valid. -/
theorem exists_document_nullHeader : ∃ doc ∈ headerSkill.document? (headerTree nullHeader),
    HeaderPasses doc.header ∧ ¬ ValidHeader doc.header := by
  decide +kernel

theorem validHeader_iff_nullHeader :
    ∃ doc, headerSkill.document? (headerTree nullHeader) = some doc ∧
      NoErrors (issues (registryFor .default (some .yaml)) (headerTree nullHeader) headerSkill) ∧
      HeaderPasses doc.header ∧ (ValidHeader doc.header ↔ NamesTriggers doc.header) := by
  obtain ⟨doc, hdoc, hpasses, -⟩ := exists_document_nullHeader
  have h := (noErrors_yamlRules_iff .default hdoc).mpr hpasses
  exact ⟨doc, hdoc, h, validHeader_iff_of_noErrors .default hdoc h⟩

/-- That a header does not block is not enough for it to be valid. -/
theorem not_validHeader_of_noErrors :
    ¬ ∀ (limits : Limits) (tree : FileTree) (skill : Skill) (doc : Document),
      skill.document? tree = some doc →
        NoErrors (issues (registryFor limits (some .yaml)) tree skill) →
          ValidHeader doc.header := by
  intro h
  obtain ⟨doc, hdoc, hpasses, hinvalid⟩ := exists_document_nullHeader
  have hnone := (noErrors_yamlRules_iff .default hdoc).mpr hpasses
  exact hinvalid (h .default (headerTree nullHeader) headerSkill doc hdoc hnone)

end Rule

end SkillLint
