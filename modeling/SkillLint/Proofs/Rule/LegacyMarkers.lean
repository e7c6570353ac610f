import Mathlib.Data.List.Infix
import Mathlib.Data.List.TakeWhile
import SkillLint.Proofs.FileTree.Built
import SkillLint.Proofs.FileTree.Walks
import SkillLint.Proofs.Path.Spelling
import SkillLint.Proofs.Text.ByteOrder
import SkillLint.Proofs.Text.Lines
import SkillLint.Rule.References

/-!
# Marker phrases near the top

A reference document should not have a marker phrase in its first lines (`InTopLines`).  The check
joins these lines and searches the joined text.  A marker phrase has no line feed in it, so it
occurs there **if and only if it stands in one of the lines** (`markersIn_topLines`), for any number
of lines: none, more than the text has, or as many as end with the phrase.

What may be wrong with an entry is an `Objection`: it cannot be read as a text, or it has marker
phrases in its first lines.  There is one objection to an entry or none (`objection?_eq_some_iff`),
whatever the others hold, and **the check reports the objections to all markdown entries**, in the
order of their names (`reportsObjections_nonStandardHeaders`).
-/

namespace SkillLint

open SkillLint.Text

/-! ## Names of documents -/

/-- The name is that of a markdown document. -/
def IsMarkdownName (name : String) : Prop := ∃ stem, stem ≠ "" ∧ name = stem ++ ".md"

theorem extensionOf?_eq_md_iff {name : String} :
    Path.extensionOf? name = some "md" ↔ IsMarkdownName name := by
  rw [Path.extensionOf?_eq_some_iff, and_iff_right (by decide)]
  refine exists_congr fun stem => and_congr_right fun _ => ?_
  rw [String.append_assoc]
  rfl

namespace Rule

variable {count : Nat} {text message : String} {tree : FileTree} {skill : Skill}
  {node : FileTree.Node} {entries : List (String × FileTree.Node)} {dir file : Path}

/-! ## Marker phrases -/

/-- The phrase stands in one of the first lines of the text. -/
def InTopLines (count : Nat) (text phrase : String) : Prop :=
  ∃ line ∈ (splitLines text.toList).take count, phrase.toList <:+: line

instance (count : Nat) (text phrase : String) : Decidable (InTopLines count text phrase) :=
  inferInstanceAs (Decidable (∃ line ∈ _, _ <:+: line))

/-- The marker phrases that stand in the first lines of the text. -/
def topMarkers (count : Nat) (text : String) : List String :=
  Schema.nonStandardMarkers.filter (InTopLines count text ·)

/-- **A marker phrase is found in joined lines if it stands in one of them.** -/
theorem markersIn_topLines (count : Nat) (text : String) :
    markersIn (topLines count text) = topMarkers count text := by
  have hphrases : ∀ marker ∈ Schema.nonStandardMarkers,
      marker.toList ≠ [] ∧ '\n' ∉ marker.toList := by decide
  refine List.filter_congr fun marker hmarker => ?_
  obtain ⟨hne, hbreak⟩ := hphrases marker hmarker
  rw [Bool.eq_iff_iff, decide_eq_true_iff, occursIn, Option.isSome_iff_ne_none, Ne,
    cutAt?_eq_none_iff, not_not, topLines, infix_joinLines_iff hne hbreak, InTopLines]

/-! ## Objections -/

/-- The message about marker phrases. -/
def markersMessage (markers : List String) : String :=
  "Has non-standard headers (" ++
    ", ".intercalate (markers.map fun marker => "'" ++ marker ++ "'") ++ ") - must be removed"

/-- **What an entry is reported for**: it cannot be read as a text, or has marker phrases in its
first lines. -/
inductive Objection (count : Nat) : FileTree.Node → String → Prop where
  | directory (entries : List (String × FileTree.Node)) : Objection count (.dir entries)
      "Cannot read reference file: Is a directory (os error 21)"
  | garbled {content : ByteArray} (hbytes : String.fromUTF8? content = none) :
      Objection count (.file content)
        "Cannot read reference file: stream did not contain valid UTF-8"
  | marked {content : ByteArray} {text : String} (htext : String.fromUTF8? content = some text)
      (hmarked : topMarkers count text ≠ []) :
      Objection count (.file content) (markersMessage (topMarkers count text))

/-- The objection to what was read of an entry, if there is one. -/
def objection? (count : Nat) : Except ReadError String → Option String
  | .error reason => some ("Cannot read reference file: " ++ reason.message)
  | .ok text =>
    if topMarkers count text = [] then none else some (markersMessage (topMarkers count text))

theorem markerFindings_eq (count : Nat) (reading : Except ReadError String) :
    markerFindings count reading = ((objection? count reading).map Finding.error).toList := by
  cases reading with
  | error reason => rfl
  | ok text =>
    simp only [markerFindings, objection?, markersIn_topLines]
    cases topMarkers count text <;> rfl

/-- There is one objection to an entry, or none. -/
theorem objection?_eq_some_iff (hfind : tree.find file = .ok node) :
    objection? count (tree.readText file) = some message ↔ Objection count node message := by
  cases node with
  | dir children =>
    have hread : tree.readText file = .error .isADirectory := by
      rw [FileTree.readText, hfind]
      rfl
    rw [hread]
    constructor
    · rintro ⟨⟩
      exact .directory children
    · rintro ⟨⟩
      rfl
  | file content =>
    cases hbytes : String.fromUTF8? content with
    | none =>
      have hread : tree.readText file = .error .invalidText := by
        rw [FileTree.readText, hfind]
        simp only [bind, Except.bind, hbytes]
      rw [hread]
      constructor
      · rintro ⟨⟩
        exact .garbled hbytes
      · intro h
        cases h with
        | garbled _ => rfl
        | marked htext _ =>
          rw [hbytes] at htext
          cases htext
    | some text =>
      have hread : tree.readText file = .ok text := by
        rw [FileTree.readText, hfind]
        simp only [bind, Except.bind, hbytes]
      rw [hread, objection?]
      constructor
      · intro h
        split at h
        · cases h
        · rename_i hmarked
          cases h
          exact .marked hbytes hmarked
      · intro h
        cases h with
        | garbled hnone =>
          rw [hbytes] at hnone
          cases hnone
        | marked htext hmarked =>
          obtain rfl := Option.some.inj (hbytes.symm.trans htext)
          rw [if_neg hmarked]

/-- **The objections to the markdown entries of a directory are reported**, one issue for each, in
the order of the bytes of their names. -/
def ReportsObjections (count : Nat) (skill : Skill) (entries : List (String × FileTree.Node))
    (issues : List Issue) : Prop :=
  ∃ reported : List (String × String),
    reported.Pairwise (fun a b => bytes a.1 < bytes b.1) ∧
    (∀ name message, (name, message) ∈ reported ↔
      IsMarkdownName name ∧ ∃ node, (name, node) ∈ entries ∧ Objection count node message) ∧
    issues = reported.map fun (name, message) => ⟨skill.id, "non-standard-headers", .error, message,
      some (skill.referencesPath.join name).text⟩

/-- Sorted paths of entries are the paths of sorted names. -/
theorem exists_names_of_sort {names : List String} (hnames : ∀ name ∈ names, IsName name) :
    ∃ sorted : List String, (∀ name, name ∈ sorted ↔ name ∈ names) ∧
      Path.sort (names.map dir.join) = sorted.map dir.join := by
  have hname : ∀ name ∈ names, (dir.join name).fileName?.getD "" = name := fun name hname => by
    rw [Path.fileName?_join (hnames name hname), Option.getD_some]
  refine ⟨(Path.sort (names.map dir.join)).map fun p => p.fileName?.getD "", fun name => ?_, ?_⟩
  · simp only [List.mem_map, Path.mem_sort]
    constructor
    · rintro ⟨p, ⟨other, hother, rfl⟩, rfl⟩
      rwa [hname other hother]
    · exact fun hmem => ⟨_, ⟨name, hmem, rfl⟩, hname name hmem⟩
  · rw [List.map_map]
    refine (List.map_id'' (fun _ => rfl) _).symm.trans (List.map_congr_left fun p hp => ?_)
    obtain ⟨other, hother, rfl⟩ := List.mem_map.mp (Path.mem_sort.mp hp)
    rw [Function.comp_apply, hname other hother]

/-- The names of the markdown entries, in order. -/
theorem markdownEntries_eq_map (htree : tree.WellFormed)
    (hfind : tree.find dir = .ok (.dir entries)) :
    ∃ names : List String, markdownEntries tree dir = names.map dir.join ∧
      names.Pairwise (fun a b => bytes a < bytes b) ∧
      ∀ name, name ∈ names ↔ IsMarkdownName name ∧ ∃ node, (name, node) ∈ entries := by
  have hdir := htree.find hfind
  have hisName : ∀ name ∈ entries.map Prod.fst, IsName name := by
    intro name hname
    obtain ⟨e, he, rfl⟩ := List.mem_map.mp hname
    exact hdir.isName he
  have hlisted : ((entries.map Prod.fst).map dir.join).filter (fun p => p.extension? == some "md") =
      ((entries.map Prod.fst).filter fun name => Path.extensionOf? name == some "md").map
        dir.join := by
    rw [List.filter_map]
    refine congrArg _ (List.filter_congr fun name hname => ?_)
    rw [Function.comp_apply, Path.extension?, Path.fileName?_join (hisName name hname),
      Option.bind_some]
  have hsublist := List.filter_sublist (l := entries.map Prod.fst)
    (p := fun name => Path.extensionOf? name == some "md")
  have hmem : ∀ name, name ∈ (entries.map Prod.fst).filter
      (fun name => Path.extensionOf? name == some "md") ↔
        IsMarkdownName name ∧ ∃ node, (name, node) ∈ entries := by
    intro name
    rw [List.mem_filter, beq_iff_eq, extensionOf?_eq_md_iff, and_comm]
    simp
  generalize (entries.map Prod.fst).filter (fun name => Path.extensionOf? name == some "md") =
    unsorted at hlisted hsublist hmem
  have hunsorted : ∀ name ∈ unsorted, IsName name := fun name hname =>
    hisName name (hsublist.subset hname)
  have hsteps := Path.distinctSteps_map_join hunsorted (hdir.nodup.sublist hsublist) dir
  obtain ⟨names, hnames, hsort⟩ := exists_names_of_sort hunsorted
  refine ⟨names, ?_, ?_, fun name => (hnames name).trans (hmem name)⟩
  · rw [markdownEntries, FileTree.list_of_find hfind, ← hsort, ← hlisted]
  · have horder := Path.pairwise_lt_sort hsteps
    rw [hsort, List.pairwise_map] at horder
    refine horder.imp_of_mem fun {a b} ha hb hlt => ?_
    exact Path.bytes_lt_of_lt_join (hunsorted a ((hnames a).mp ha))
      (hunsorted b ((hnames b).mp hb)) hlt

/-- **The check reports the objections to all markdown entries.** -/
theorem reportsObjections_nonStandardHeaders (count : Nat) (htree : tree.WellFormed)
    (hfind : tree.find skill.referencesPath = .ok (.dir entries)) :
    ReportsObjections count skill entries ((nonStandardHeaders count).check tree skill) := by
  obtain ⟨names, hentries, horder, hnames⟩ := markdownEntries_eq_map htree hfind
  refine ⟨names.filterMap fun name =>
    (objection? count (tree.readText (skill.referencesPath.join name))).map (name, ·), ?_, ?_, ?_⟩
  case refine_1 =>
    refine horder.filterMap _ fun a b hab reported ha reported' hb => ?_
    obtain ⟨message, -, rfl⟩ := Option.map_eq_some_iff.mp ha
    obtain ⟨message', -, rfl⟩ := Option.map_eq_some_iff.mp hb
    exact hab
  case refine_2 =>
    intro name message
    rw [List.mem_filterMap]
    constructor
    · rintro ⟨other, hother, hreported⟩
      obtain ⟨message', hobjection, heq⟩ := Option.map_eq_some_iff.mp hreported
      obtain ⟨rfl, rfl⟩ := Prod.mk.inj heq
      obtain ⟨hmarkdown, node, hentry⟩ := (hnames other).mp hother
      have hnode := FileTree.find_join htree hfind hentry
      exact ⟨hmarkdown, node, hentry, (objection?_eq_some_iff hnode).mp hobjection⟩
    · rintro ⟨hmarkdown, node, hentry, hobjection⟩
      have hnode := FileTree.find_join htree hfind hentry
      refine ⟨name, (hnames name).mpr ⟨hmarkdown, node, hentry⟩, ?_⟩
      rw [(objection?_eq_some_iff hnode).mpr hobjection, Option.map_some]
  case refine_3 =>
    have hdir : tree.isDir skill.referencesPath = true :=
      FileTree.isDir_eq_true_iff.mpr ⟨entries, hfind⟩
    rw [List.map_filterMap]
    simp only [nonStandardHeaders, hdir, if_true, hentries, List.flatMap_map, markerFindings_eq,
      List.filterMap_eq_flatMap_toList]
    refine List.flatMap_congr fun name _ => ?_
    cases objection? count (tree.readText (skill.referencesPath.join name)) <;> rfl

/-- References that cannot be read, and markers on the last line that counts and behind it. -/
def mixedReferences : List (String × FileTree.Node) :=
  [("late.md", .file "# Notes\nText\nLoad when: late\n".toUTF8),
    ("last.md", .file "# Notes\nLoad when: writing".toUTF8), ("garbled.md", .file ⟨#[0xff]⟩),
    ("drafts.md", .dir []), ("last.txt", .file "Load when: writing".toUTF8)]

/-- A skill with these references. -/
def mixedTree : FileTree := ⟨.dir [("s", .dir [(Schema.referencesDir, .dir mixedReferences)])], []⟩

theorem wellFormed_mixedTree : mixedTree.WellFormed := by
  have hreferences : (FileTree.Node.dir mixedReferences).WellFormed := by
    refine .dir (by decide) (by decide) ?_
    simp [mixedReferences, FileTree.Node.wellFormed_emptyDir, FileTree.Node.WellFormed.file]
  have hskill := FileTree.Node.wellFormed_singleton
    (by decide : IsName Schema.referencesDir) hreferences
  exact FileTree.Node.wellFormed_singleton (by decide) hskill

theorem reportsObjections_mixedTree : mixedTree.WellFormed ∧
    mixedTree.find (Skill.ofDirectory ⟨"s"⟩ "s" .full).referencesPath =
      .ok (.dir mixedReferences) ∧
    ReportsObjections 2 (.ofDirectory ⟨"s"⟩ "s" .full) mixedReferences
      ((nonStandardHeaders 2).check mixedTree (.ofDirectory ⟨"s"⟩ "s" .full)) :=
  ⟨wellFormed_mixedTree, rfl, reportsObjections_nonStandardHeaders 2 wellFormed_mixedTree rfl⟩

end Rule

end SkillLint
