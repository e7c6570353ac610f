import SkillLint.Proofs.Header.InsertionOrder
import SkillLint.Proofs.Workflow.RecordFiles
import SkillLint.Proofs.Workflow.RecordVerdict

/-!
# The files that a record names

A record names its description, and the document of its command.  The description should exist in
any case, the document if the command does: its status says so, or it has none (`IsExisting`).

Whether a field is declared is asked of its key, and whether the file exists of the text of its
value.  Null, lists and mappings have no text, and then the second question is not asked.  So an
accepted record declares both fields, and what they give exists if they give a text
(`passes_fileRemarks_iff`), but **its files exist exactly if the fields give texts that are not
empty** (`filesExist_iff_of_noErrors`).  A record whose fields are all null is accepted
(`not_filesExist_of_noErrors`).
-/

namespace SkillLint

/-- The member that a word spells. -/
theorem Vocabulary.text_of_parse? {α : Type} [Vocabulary α] {word : String} {m : α}
    (h : parse? α word = some m) : text m = word := by
  rw [parse?] at h
  have hfound := List.find?_some h
  exact beq_iff_eq.mp hfound

namespace Workflow

variable {w : Workflow} {tree : FileTree} {file : Path} {record : Mapping}

/-- The field gives the path of something that exists. -/
def NamesFile (w : Workflow) (tree : FileTree) (record : Mapping) (field : String) : Prop :=
  ∃ text, (record.get? field).bind Value.scalarText? = some text ∧ text ≠ "" ∧
    tree.pathExists (w.resolve text) = true

/-- The status of the command is existing, or it has none. -/
def IsExisting (record : Mapping) : Prop :=
  record.present? "status" = none ∨ record.text "status" = "existing"

/-- **The files that the record names exist**: its description, and the document of an existing
command. -/
structure FilesExist (w : Workflow) (tree : FileTree) (record : Mapping) : Prop where
  description : NamesFile w tree record "description"
  document : IsExisting record → NamesFile w tree record "path"

/-! ## Status -/

theorem status?_eq_existing_iff : status? record = some .existing ↔
    statusText record = "existing" := by
  constructor
  · intro h
    exact (Vocabulary.text_of_parse? h).symm
  · intro h
    rw [status?, h]
    rfl

/-- Lists and mappings are shown in brackets, and null as a word of its own. -/
theorem display_eq_existing_iff (v : Value) : v.display = "existing" ↔
    v.scalarText? = some "existing" := by
  cases v with
  | null | bool _ | int _ | float _ | string _ => simp [Value.display, Value.scalarText?]
  | list _ | map _ =>
    refine ⟨fun h => ?_, nofun⟩
    have hhead := congrArg (·.toList.head?) h
    simp [Value.display] at hhead

/-- A value with a text is present. -/
theorem present?_of_scalarText? {field text : String}
    (h : (record.get? field).bind Value.scalarText? = some text) :
    ∃ v, record.present? field = some v ∧ v.scalarText? = some text := by
  obtain ⟨v, hv, htext⟩ := Option.bind_eq_some_iff.mp h
  refine ⟨v, Mapping.present?_eq_some_iff.mpr ⟨hv, ?_⟩, htext⟩
  rintro rfl
  cases htext

/-- The check takes a command for an existing one if its status is existing, or it has none. -/
theorem isExisting_iff : IsExisting record ↔ status? record = some .existing := by
  rw [status?_eq_existing_iff, IsExisting, statusText]
  constructor
  · rintro (hnone | htext)
    · rw [hnone]
      rfl
    · have hscalar : (record.get? "status").bind Value.scalarText? = some "existing" := by
        rw [Mapping.text] at htext
        cases hvalue : (record.get? "status").bind Value.scalarText? with
        | none => simp [hvalue] at htext
        | some text => rw [← htext, hvalue]; rfl
      obtain ⟨v, hpresent, hv⟩ := present?_of_scalarText? hscalar
      rw [hpresent]
      exact (display_eq_existing_iff v).mpr hv
  · intro hshown
    cases hpresent : record.present? "status" with
    | none => exact .inl rfl
    | some v =>
      rw [hpresent] at hshown
      have hvalue := (Mapping.present?_eq_some_iff.mp hpresent).1
      refine .inr ?_
      rw [Mapping.text, hvalue, Option.bind_some, (display_eq_existing_iff v).mp hshown]
      rfl

/-! ## Fields and files -/

theorem namesFile_iff {field : String} : NamesFile w tree record field ↔
    record.text field ≠ "" ∧ tree.pathExists (w.resolve (record.text field)) = true := by
  rw [NamesFile, Mapping.text]
  cases (record.get? field).bind Value.scalarText? <;> simp

/-- **Files pass if those exist that are given by a text.** -/
theorem passes_fileRemarks_iff : Passes (fileRemarks w tree record) ↔
    (record.text "path" ≠ "" → IsExisting record →
      tree.pathExists (w.resolve (record.text "path")) = true) ∧
    (record.text "description" ≠ "" →
      tree.pathExists (w.resolve (record.text "description")) = true) := by
  rw [fileRemarks, passes_append, passes_ite_blocking, passes_ite_blocking, isExisting_iff]
  simp

/-- **The files of an accepted record.**  The record declares its description and its document, and
what they give exists if they give a text that is not empty: the description in any case, the
document of an existing command.  Hence its files exist if and only if the fields do give such
texts. -/
theorem filesExist_iff_of_noErrors (hload : w.loadRecord tree file = .ok record)
    (h : NoErrors (w.recordFileIssues tree file)) :
    record.contains "description" = true ∧ record.contains "path" = true ∧
      (record.text "description" ≠ "" → NamesFile w tree record "description") ∧
      (IsExisting record → record.text "path" ≠ "" → NamesFile w tree record "path") ∧
      (FilesExist w tree record ↔ record.text "description" ≠ "" ∧
        (IsExisting record → record.text "path" ≠ "")) := by
  obtain ⟨record', hload', hpasses⟩ := noErrors_recordFileIssues_iff.mp h
  obtain rfl : record' = record := Except.ok.inj (hload'.symm.trans hload)
  simp only [recordRemarks, passes_append] at hpasses
  obtain ⟨⟨⟨⟨⟨⟨hfields, -⟩, -⟩, hfiles⟩, -⟩, -⟩, -⟩ := hpasses
  obtain ⟨hdeclared, -⟩ := passes_fieldRemarks_iff.mp hfields
  obtain ⟨hdocument, hdescription⟩ := passes_fileRemarks_iff.mp hfiles
  have hnamed : record'.text "description" ≠ "" → NamesFile w tree record' "description" :=
    fun htext => namesFile_iff.mpr ⟨htext, hdescription htext⟩
  have hexisting : IsExisting record' → record'.text "path" ≠ "" →
      NamesFile w tree record' "path" :=
    fun hstatus htext => namesFile_iff.mpr ⟨htext, hdocument htext hstatus⟩
  refine ⟨hdeclared _ (by decide), hdeclared _ (by decide), hnamed, hexisting, ?_, ?_⟩
  · rintro ⟨hfirst, hsecond⟩
    exact ⟨(namesFile_iff.mp hfirst).1, fun hstatus => (namesFile_iff.mp (hsecond hstatus)).1⟩
  · rintro ⟨hfirst, hsecond⟩
    exact ⟨hnamed hfirst, fun hstatus => hexisting hstatus (hsecond hstatus)⟩

/-! ## A record without texts -/

/-- A record of a command, the only file of its project. -/
def soleRecord : Path := ⟨"commands/draft.yaml"⟩

/-- The project of a record whose fields for its files have the value. -/
def soleTree (value : String) : FileTree :=
  (FileTree.empty []).writeFile soleRecord
    ("command: draft\ninputs:\noutputs:\nrequires:\npath:" ++ value ++ "\ndescription:" ++
      value).toUTF8

/-- The text under a key, if the record loads. -/
def loadedText (w : Workflow) (tree : FileTree) (file : Path) (field : String) : Option String :=
  (w.loadRecord tree file).toOption.map (·.text field)

theorem loadedText_eq {field : String} (hload : w.loadRecord tree file = .ok record) :
    w.loadedText tree file field = some (record.text field) := by
  rw [loadedText, hload]
  rfl

/-- A record that names itself as its description and document. -/
theorem filesExist_soleTree :
    NoErrors (plainWorkflow.recordFileIssues (soleTree " commands/draft.yaml") soleRecord) ∧
      ∃ record, plainWorkflow.loadRecord (soleTree " commands/draft.yaml") soleRecord =
          .ok record ∧
        FilesExist plainWorkflow (soleTree " commands/draft.yaml") record := by
  have hnone : NoErrors
      (plainWorkflow.recordFileIssues (soleTree " commands/draft.yaml") soleRecord) := by
    decide +kernel
  obtain ⟨record, hload, -⟩ := noErrors_recordFileIssues_iff.mp hnone
  obtain ⟨-, -, -, -, hfiles⟩ := filesExist_iff_of_noErrors hload hnone
  have htext : ∀ field ∈ ["description", "path"], plainWorkflow.loadedText
      (soleTree " commands/draft.yaml") soleRecord field = some "commands/draft.yaml" := by
    decide +kernel
  have hne : ∀ field ∈ ["description", "path"], record.text field ≠ "" := by
    intro field hfield
    have hsame := (loadedText_eq hload).symm.trans (htext field hfield)
    rw [Option.some.inj hsame]
    decide
  exact ⟨hnone, record, hload,
    hfiles.mpr ⟨hne _ List.mem_cons_self, fun _ => hne _ (by simp)⟩⟩

/-- That a record has no errors is not enough for its files to exist: it may name none. -/
theorem not_filesExist_of_noErrors : ¬ ∀ (w : Workflow) (tree : FileTree) (file : Path)
    (record : Mapping), w.loadRecord tree file = .ok record →
      NoErrors (w.recordFileIssues tree file) → FilesExist w tree record := by
  intro h
  have hnone : NoErrors (plainWorkflow.recordFileIssues (soleTree "") soleRecord) := by
    decide +kernel
  obtain ⟨record, hload, -⟩ := noErrors_recordFileIssues_iff.mp hnone
  have htext : plainWorkflow.loadedText (soleTree "") soleRecord "description" = some "" := by
    decide +kernel
  have hempty := Option.some.inj ((loadedText_eq hload).symm.trans htext)
  exact (namesFile_iff.mp (h _ _ _ record hload hnone).description).1 hempty

end Workflow

end SkillLint
