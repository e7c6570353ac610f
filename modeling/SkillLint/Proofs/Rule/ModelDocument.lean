import SkillLint.Proofs.FileTree.Names
import SkillLint.Proofs.Header.RoundTrip
import SkillLint.Proofs.Header.Split
import SkillLint.Proofs.Rule.HeaderVerdict
import SkillLint.Proofs.Text.Lines
import SkillLint.Sample

/-!
# What the model document holds

The model document (`Skill.modelDocument`) is written for a name, and names a related skill.  Both
stand in its header, as values, and the name stands in its body, as the title.

**Whatever the names are, the document is taken apart as it was put together**, as long as they are
identifiers without the delimiter in them: it is cut around its header (`split_modelDocument`), the
header is read as it was written (`parse_modelHeaderText`), and the title is a line of its own
above sections that are the same for all names (`splitLines_modelBody`).  The title does not look
like the heading of a section, so headings are found where the sections have them
(`sectionAfter?_modelBody`).
-/

namespace SkillLint

open SkillLint.Text SkillLint.Header.Restricted

variable {name related : String} {c : Char}

/-! ## Identifiers -/

namespace Schema.Identifier

/-- Characters that are none of an identifier do not occur in it. -/
theorem notMem (h : Identifier name) (hc : Rule.isIdentifierChar c = false) : c ∉ name.toList := by
  intro hmem
  have hchar := Rule.isIdentifierChar_eq_true_iff.mpr (h.2 c hmem)
  rw [hc] at hchar
  cases hchar

theorem toList_ne_nil (h : Identifier name) : name.toList ≠ [] :=
  fun hnil => h.1 (String.toList_eq_nil_iff.mp hnil)

/-- An identifier may name an entry of a directory. -/
theorem isName (h : Identifier name) : IsName name := by
  have hdot : '.' ∉ name.toList := h.notMem (by decide)
  refine ⟨h.1, ?_, ?_, h.notMem (by decide)⟩
  · rintro rfl
    exact hdot List.mem_cons_self
  · rintro rfl
    exact hdot List.mem_cons_self

/-- No character of an identifier is blank. -/
theorem isBlank_eq_false (h : Identifier name) (hc : c ∈ name.toList) : isBlank c = false := by
  have hrange : (97 ≤ c.toNat ∧ c.toNat ≤ 122) ∨ (65 ≤ c.toNat ∧ c.toNat ≤ 90) ∨
      (48 ≤ c.toNat ∧ c.toNat ≤ 57) ∨ c.toNat = 45 := by
    rcases h.2 c hc with hlower | hupper | hdigit | rfl
    · exact .inl ⟨UInt32.le_iff_toNat_le.mp hlower.1, UInt32.le_iff_toNat_le.mp hlower.2⟩
    · exact .inr (.inl ⟨UInt32.le_iff_toNat_le.mp hupper.1, UInt32.le_iff_toNat_le.mp hupper.2⟩)
    · exact .inr (.inr (.inl
        ⟨UInt32.le_iff_toNat_le.mp hdigit.1, UInt32.le_iff_toNat_le.mp hdigit.2⟩))
    · exact .inr (.inr (.inr rfl))
  rw [Bool.eq_false_iff]
  intro hblank
  simp only [isBlank, Bool.or_eq_true, Bool.and_eq_true, decide_eq_true_eq, beq_iff_eq] at hblank
  omega

theorem trimmed (h : Identifier name) : Trimmed name.toList :=
  ⟨fun _ hc => h.isBlank_eq_false (List.mem_of_mem_head? hc),
    fun _ hc => h.isBlank_eq_false (List.mem_of_mem_getLast? hc)⟩

/-- An identifier is written into a header as it is. -/
theorem isScalar (h : Identifier name) : IsScalar (.plain name.toList) :=
  ⟨h.notMem (by decide), h.trimmed,
    fun hquotes => h.notMem (by decide) (List.mem_of_mem_head? hquotes.1)⟩

end Schema.Identifier

/-! ## The header -/

namespace Skill

/-- The fields of the model document. -/
def modelFields (name related : String) : List HeaderField :=
  [⟨"name".toList, .scalar (.plain name.toList)⟩,
    ⟨"description".toList,
      .scalar (.plain "Use when drafting long-form pieces from research notes".toList)⟩,
    ⟨"metadata".toList, .mapping
      [("triggers".toList, .plain "draft, article, long-form".toList),
        ("role".toList, .plain "writer".toList),
        ("scope".toList, .plain "design".toList),
        ("output-format".toList, .plain "document".toList),
        ("domain".toList, .plain "craft".toList),
        ("related-skills".toList, .plain related.toList)]⟩]

/-- What is read of the header of the model document. -/
def modelHeader (name related : String) : Mapping :=
  ⟨[("name", .string name),
    ("description", .string "Use when drafting long-form pieces from research notes"),
    ("metadata", .map
      [("triggers", .string "draft, article, long-form"), ("role", .string "writer"),
        ("scope", .string "design"), ("output-format", .string "document"),
        ("domain", .string "craft"), ("related-skills", .string related)])]⟩

/-- The lines of the header are those of its fields, between two delimiters. -/
theorem map_modelHeaderLines (name related : String) :
    (modelHeaderLines name related).map String.toList =
      "---".toList :: ((modelFields name related).flatMap HeaderField.lines ++ ["---".toList]) := by
  simp [modelHeaderLines, modelFields, HeaderField.lines, HeaderField.pair, Scalar.spelling]

theorem encodable_modelFields (hname : IsScalar (.plain name.toList)) (hne : name.toList ≠ [])
    (hrelated : IsScalar (.plain related.toList)) : Encodable (modelFields name related) := by
  have hkeys : ["name".toList, "description".toList, "metadata".toList].Nodup := by decide
  have hentries : ["triggers".toList, "role".toList, "scope".toList, "output-format".toList,
      "domain".toList, "related-skills".toList].Nodup := by decide
  refine ⟨hkeys, ?_⟩
  simp only [modelFields, List.forall_mem_cons]
  refine ⟨⟨?_, hname, fun h => hne (Scalar.plain.inj h)⟩, ?_,
    ⟨?_, List.cons_ne_nil _ _, hentries, ?metadata⟩, List.forall_mem_nil _⟩
  case metadata =>
    simp only [List.forall_mem_cons]
    refine ⟨?_, ?_, ?_, ?_, ?_, ⟨?_, ?_, hrelated⟩, List.forall_mem_nil _⟩
    all_goals decide
  all_goals decide

theorem map_entry_modelFields (name related : String) :
    ⟨(modelFields name related).map HeaderField.entry⟩ = modelHeader name related := by
  simp [modelFields, modelHeader, HeaderField.entry, Content.value, Scalar.value, Scalar.text]

/-- A line feed before a header is passed over. -/
theorem parse_break (s : List Char) :
    parse (String.ofList ('\n' :: s)) = parse (String.ofList s) := by
  have hlines : Header.Restricted.lines ('\n' :: s) = Header.Restricted.lines s := by
    rw [Header.Restricted.lines, Header.Restricted.lines, trim, trim, ← List.singleton_append,
      trimLeft_append_left (by decide)]
  rw [parse, parse, String.toList_ofList, String.toList_ofList, hlines]

/-- Between the delimiters stand the fields, each line with a line feed at its end. -/
def modelHeaderText (name related : String) : String :=
  String.ofList ('\n' :: encode (modelFields name related))

/-- **The header of the model document is read as it was written.** -/
theorem parse_modelHeaderText (hname : IsScalar (.plain name.toList)) (hne : name.toList ≠ [])
    (hrelated : IsScalar (.plain related.toList)) :
    parse (modelHeaderText name related) = modelHeader name related := by
  rw [modelHeaderText, parse_break, parse_encode (encodable_modelFields hname hne hrelated),
    map_entry_modelFields]

/-- What follows the header: the body, after the line feed that ends the line of the second
delimiter. -/
def modelBody (name : String) : String :=
  String.ofList (joinLines ([] :: (modelBodyLines name).map String.toList))

/-- A phrase without a space is not in a line with a pair, if it is not in what stands on either
side of the space. -/
theorem not_infix_pair {p b key value : List Char} (hp : ' ' ∉ p) (hkey : ¬ p <:+: b ++ key ++ [':'])
    (hvalue : ¬ p <:+: value) : ¬ p <:+: b ++ HeaderField.pair key [' '] value := by
  have hline : b ++ HeaderField.pair key [' '] value = (b ++ key ++ [':']) ++ ' ' :: value := by
    simp [HeaderField.pair]
  rw [hline, infix_append_cons_iff hp]
  exact fun h => h.elim hkey hvalue

/-- No field of the model document holds the delimiter, if the names do not. -/
theorem not_delimiter_infix_modelFields (hname : ¬ Header.delimiter.toList <:+: name.toList)
    (hrelated : ¬ Header.delimiter.toList <:+: related.toList) :
    ∀ line ∈ (modelFields name related).flatMap HeaderField.lines,
      ¬ Header.delimiter.toList <:+: line := by
  have htop : ¬ Header.delimiter.toList <:+:
      [] ++ HeaderField.pair "name".toList [' '] name.toList :=
    not_infix_pair (by decide) (by decide) hname
  have hlast : ¬ Header.delimiter.toList <:+:
      "  ".toList ++ HeaderField.pair "related-skills".toList [' '] related.toList :=
    not_infix_pair (by decide) (by decide) hrelated
  simp only [modelFields, List.flatMap_cons, List.flatMap_nil, HeaderField.lines, Scalar.spelling,
    List.map_cons, List.map_nil, List.nil_append, List.cons_append, List.append_nil,
    List.forall_mem_cons]
  refine ⟨htop, ?description, ?_, ?_, ?_, ?_, ?_, ?_, hlast, List.forall_mem_nil _⟩
  case description => decide +kernel
  all_goals decide

/-- Before and after the fields there is a line feed. -/
theorem modelHeaderText_toList (name related : String) : (modelHeaderText name related).toList =
    '\n' :: (joinLines ((modelFields name related).flatMap HeaderField.lines) ++ ['\n']) := by
  have hfields : (modelFields name related).flatMap HeaderField.lines ≠ [] := List.cons_ne_nil _ _
  rw [modelHeaderText, String.toList_ofList, encode, flatMap_terminated hfields]

/-- **The model document is put together** of the delimiter, the header, the delimiter again and
the body. -/
theorem modelDocument_eq_append (name related : String) : modelDocument name related =
    Header.delimiter ++ modelHeaderText name related ++ Header.delimiter ++ modelBody name := by
  have hfields : (modelFields name related).flatMap HeaderField.lines ≠ [] := List.cons_ne_nil _ _
  have hbody : (modelBodyLines name).map String.toList ≠ [] := List.cons_ne_nil _ _
  have hopen : ["---".toList] ≠ [] := List.cons_ne_nil _ _
  have hcontent : (modelDocument name related).toList =
      joinLines (((modelHeaderLines name related ++ modelBodyLines name)).map String.toList) := by
    rw [modelDocument, String.toList_intercalate]
    rfl
  have hshape : ((modelHeaderLines name related ++ modelBodyLines name)).map String.toList =
      ["---".toList] ++ ((modelFields name related).flatMap HeaderField.lines ++
        (["---".toList] ++ (modelBodyLines name).map String.toList)) := by
    rw [List.map_append, map_modelHeaderLines]
    simp
  have hrest : (modelBody name).toList =
      '\n' :: joinLines ((modelBodyLines name).map String.toList) := by
    rw [modelBody, String.toList_ofList, ← List.singleton_append,
      joinLines_append (List.cons_ne_nil _ _) hbody, joinLines_singleton, List.nil_append]
  rw [← String.toList_inj, hcontent, hshape,
    joinLines_append hopen (List.append_ne_nil_of_left_ne_nil hfields _),
    joinLines_append hfields (List.append_ne_nil_of_left_ne_nil hopen _),
    joinLines_append hopen hbody, joinLines_singleton, String.toList_append,
    String.toList_append, String.toList_append, modelHeaderText_toList, hrest]
  simp [Header.delimiter]

/-- **The model document is cut around its header**: the delimiter does not occur before the line
that it stands on. -/
theorem split_modelDocument (hname : ¬ Header.delimiter.toList <:+: name.toList)
    (hrelated : ¬ Header.delimiter.toList <:+: related.toList) :
    Header.split (modelDocument name related) =
      .ok ⟨modelHeaderText name related, modelBody name⟩ := by
  rw [Header.split_eq_ok_iff]
  refine ⟨modelDocument_eq_append name related, ?_⟩
  have hdelimiter : '\n' ∉ Header.delimiter.toList := by decide
  have hlines : (modelHeaderText name related).toList ++ Header.delimiter.toList.dropLast =
      [] ++ '\n' :: (joinLines ((modelFields name related).flatMap HeaderField.lines) ++
        '\n' :: Header.delimiter.toList.dropLast) := by
    rw [modelHeaderText_toList]
    simp
  rw [hlines, infix_append_cons_iff hdelimiter, infix_append_cons_iff hdelimiter,
    infix_joinLines_iff (by decide) hdelimiter]
  rintro (hnone | ⟨line, hline, hoccurs⟩ | hpart)
  · exact absurd hnone (by decide)
  · exact not_delimiter_infix_modelFields hname hrelated line hline hoccurs
  · exact not_infix_dropLast (by decide) hpart

/-! ## The body -/

/-- The lines of the sections of the model document, which are the same for all names. -/
def modelSections : List (List Char) := ((modelBodyLines "").drop 2).map String.toList

/-- The lines of the body: blank lines, the title and the sections. -/
theorem modelBody_toList (name : String) : (modelBody name).toList =
    joinLines ([] :: [] :: ("# ".toList ++ name.toList) :: modelSections) := by
  have htitle : (modelBodyLines name).map String.toList =
      [] :: ("# " ++ name).toList :: modelSections := rfl
  rw [modelBody, String.toList_ofList, htitle, String.toList_append]

theorem oneLine_modelSections : ∀ line ∈ modelSections, '\n' ∉ line := by decide

/-- The body is read back line by line, if the name has no line feed in it. -/
theorem splitLines_modelBody (hname : '\n' ∉ name.toList) : splitLines (modelBody name).toList =
    [] :: [] :: ("# ".toList ++ name.toList) :: modelSections := by
  rw [modelBody_toList]
  refine splitLines_joinLines (List.cons_ne_nil _ _) ?_
  simp only [List.forall_mem_cons]
  refine ⟨List.not_mem_nil, List.not_mem_nil, ?_, oneLine_modelSections⟩
  rw [List.mem_append]
  exact fun h => h.elim (by decide) hname

/-- **The body has ninety lines** that are not blank. -/
theorem filledLines_modelBody (hname : '\n' ∉ name.toList) :
    Rule.filledLines (modelBody name) = 90 := by
  have htitle : isAllBlank ("# ".toList ++ name.toList) = false :=
    not_isAllBlank_of_mem (c := '#') (List.mem_append_left _ List.mem_cons_self) (by decide)
  have hsections : modelSections.countP (!isAllBlank ·) = 89 := by decide
  rw [Rule.filledLines, splitLines_modelBody hname]
  simp only [List.countP_cons, hsections, htitle]
  rfl

/-- A heading is looked for in the sections only: the title is none, as there is no second number
sign. -/
theorem sectionAfter?_modelBody {heading : List Char → Option (List Char)}
    (hheading : ∀ s r, heading s = some r → "##".toList <+: s) (hname : '#' ∉ name.toList) :
    Markdown.sectionAfter? heading (modelBody name).toList =
      Markdown.sectionAfter? heading ('\n' :: joinLines modelSections) := by
  have hbreak : '\n' ∉ "##".toList := by decide
  have htop : ¬ "##".toList <:+: joinLines [[], [], "# ".toList ++ name.toList] := by
    rw [infix_joinLines_iff (by decide) hbreak]
    rintro ⟨line, hline, hoccurs⟩
    simp only [List.mem_cons, List.not_mem_nil, or_false] at hline
    rcases hline with rfl | rfl | rfl
    · exact absurd hoccurs (by decide)
    · exact absurd hoccurs (by decide)
    · have htitle : "# ".toList ++ name.toList = ['#'] ++ ' ' :: name.toList := rfl
      rw [htitle, infix_append_cons_iff (by decide)] at hoccurs
      rcases hoccurs with hsign | hoccurs
      · exact absurd hsign (by decide)
      · exact hname (hoccurs.subset List.mem_cons_self)
  have hlines : joinLines ([[], [], "# ".toList ++ name.toList] ++ modelSections) =
      joinLines [[], [], "# ".toList ++ name.toList] ++ '\n' :: joinLines modelSections :=
    joinLines_append (List.cons_ne_nil _ _) (List.cons_ne_nil _ _)
  have hbody : (modelBody name).toList =
      joinLines [[], [], "# ".toList ++ name.toList] ++ '\n' :: joinLines modelSections :=
    (modelBody_toList name).trans hlines
  rw [hbody, Markdown.sectionAfter?, Markdown.sectionAfter?,
    restAfter?_append_break hheading hbreak htop]

end Skill

end SkillLint
