import Mathlib.Data.List.Forall2
import SkillLint.Report.Table
import SkillLint.Text.Search

/-!
# Colour changes only colour

A terminal is told to paint by sequences: an escape, a bracket, digits and semicolons, and an `m`.
`plainText` deletes them.  A text without escapes stays as it is, and a painted text loses its paint
(`UnpaintsTo.painted`), whatever follows behind it.  `UnpaintsTo` says this of two texts, and it goes
through texts that are put together and lines that are joined (`UnpaintsTo.intercalate`), so the
table is compared line by line: every section with colour has the lines of the section without.

Hence **deleting the sequences from the coloured table of a report gives the plain one**
(`plainText_renderTable`), if no text of the report has an escape of its own.
-/

namespace SkillLint

open Text

/-! ## Deleting sequences -/

/-- A character between the bracket and the end of a sequence. -/
def isParameter (c : Char) : Bool := c.isDigit || c = ';'

/-- What follows a sequence, in a text that stands behind an escape. -/
def afterSequence? (cs : List Char) : Option (List Char) :=
  (dropPrefix? ['['] cs).bind fun cs => dropPrefix? ['m'] (cs.dropWhile isParameter)

theorem length_lt_of_afterSequence? {cs rest : List Char} (h : afterSequence? cs = some rest) :
    rest.length < cs.length := by
  obtain ⟨behind, hbehind, hrest⟩ := Option.bind_eq_some_iff.mp h
  have hlength := (List.dropWhile_sublist isParameter (l := behind)).length_le
  rw [dropPrefix?_eq_some_iff.mp hrest] at hlength
  rw [dropPrefix?_eq_some_iff.mp hbehind]
  simp only [List.length_append, List.length_singleton] at hlength ⊢
  omega

/-- The characters without the sequences. -/
def withoutSequences : List Char → List Char
  | [] => []
  | c :: cs =>
    if c = '\x1b' then
      match h : afterSequence? cs with
      | some rest =>
        have := length_lt_of_afterSequence? h
        withoutSequences rest
      | none => c :: withoutSequences cs
    else c :: withoutSequences cs
  termination_by cs => cs.length

/-- The text without the sequences. -/
def plainText (text : String) : String := String.ofList (withoutSequences text.toList)

/-- The text has no escape. -/
def EscapeFree (text : String) : Prop := '\x1b' ∉ text.toList

instance (text : String) : Decidable (EscapeFree text) :=
  inferInstanceAs (Decidable ('\x1b' ∉ text.toList))

theorem EscapeFree.append {a b : String} (ha : EscapeFree a) (hb : EscapeFree b) :
    EscapeFree (a ++ b) := by
  rw [EscapeFree, String.toList_append, List.mem_append]
  exact fun h => h.elim ha hb

/-- Numbers are written in digits. -/
theorem escapeFree_toString (n : Nat) : EscapeFree (toString n) := by
  have hdigits : '\x1b' ∉ Nat.toDigits 10 n :=
    fun h => absurd (Nat.isDigit_of_mem_toDigits (by decide) (by decide) h) (by decide)
  simpa [EscapeFree] using hdigits

/-- What has no escape stays as it is. -/
theorem withoutSequences_append {text : List Char} (h : '\x1b' ∉ text) (rest : List Char) :
    withoutSequences (text ++ rest) = text ++ withoutSequences rest := by
  induction text with
  | nil => rfl
  | cons c cs ih =>
    obtain ⟨hc, hcs⟩ := not_or.mp (mt List.mem_cons.mpr h)
    rw [List.cons_append, withoutSequences, if_neg (Ne.symm hc), ih hcs, List.cons_append]

/-- **A sequence is deleted.** -/
theorem withoutSequences_sequence {parameters : List Char}
    (h : parameters.all isParameter = true) (rest : List Char) :
    withoutSequences ('\x1b' :: '[' :: (parameters ++ 'm' :: rest)) = withoutSequences rest := by
  have hafter : afterSequence? ('[' :: (parameters ++ 'm' :: rest)) = some rest := by
    have hdrop : (parameters ++ 'm' :: rest).dropWhile isParameter = 'm' :: rest := by
      rw [List.dropWhile_append_of_pos (List.all_eq_true.mp h), List.dropWhile_cons_of_neg (by decide)]
    simp [afterSequence?, dropPrefix?, hdrop]
  rw [withoutSequences, if_pos rfl]
  split
  · rename_i rest' hrest'
    rw [hafter] at hrest'
    cases hrest'
    rfl
  · rename_i hnone
    rw [hafter] at hnone
    cases hnone

/-! ## Texts that differ by paint -/

/-- Deleting the sequences from the first text gives the second, whatever follows. -/
def UnpaintsTo (painted plain : String) : Prop :=
  ∀ rest, withoutSequences (painted.toList ++ rest) = plain.toList ++ withoutSequences rest

theorem EscapeFree.unpaintsTo {text : String} (h : EscapeFree text) : UnpaintsTo text text :=
  withoutSequences_append h

namespace UnpaintsTo

variable {a b c d : String}

theorem plainText_eq (h : UnpaintsTo a b) : plainText a = b := by
  have hall := h []
  rw [List.append_nil, withoutSequences, List.append_nil] at hall
  rw [plainText, hall, String.ofList_toList]

theorem append (h : UnpaintsTo a b) (h' : UnpaintsTo c d) : UnpaintsTo (a ++ c) (b ++ d) := by
  intro rest
  rw [String.toList_append, String.toList_append, List.append_assoc, h, h', List.append_assoc]

theorem followedBy (h : UnpaintsTo a b) (hc : EscapeFree c) : UnpaintsTo (a ++ c) (b ++ c) :=
  h.append hc.unpaintsTo

/-- **Paint is one sequence before the text and one behind it**, whatever the first one says. -/
theorem painted {code : String} (hcode : code.toList.all isParameter = true) (h : EscapeFree a) :
    UnpaintsTo ("\x1b[" ++ code ++ "m" ++ a ++ "\x1b[0m") a := by
  intro rest
  have hreset : ['0'].all isParameter = true := by decide
  have hsequences : ("\x1b[" ++ code ++ "m" ++ a ++ "\x1b[0m").toList ++ rest =
      '\x1b' :: '[' :: (code.toList ++ 'm' :: (a.toList ++
        '\x1b' :: '[' :: (['0'] ++ 'm' :: rest))) := by
    simp
  rw [hsequences, withoutSequences_sequence hcode, withoutSequences_append h,
    withoutSequences_sequence hreset]

theorem apply (p : Paint) (h : EscapeFree a) : UnpaintsTo (p.apply true a) (p.apply false a) := by
  have hcode : p.code.toList.all isParameter = true := by cases p <;> decide
  exact painted hcode h

/-- Lines that differ by paint are joined to texts that differ by paint. -/
theorem intercalate {separator : String} (hseparator : EscapeFree separator)
    {painted plain : List String} (h : List.Forall₂ UnpaintsTo painted plain) :
    UnpaintsTo (separator.intercalate painted) (separator.intercalate plain) := by
  induction h with
  | nil =>
    have hempty : EscapeFree "" := by decide
    exact hempty.unpaintsTo
  | @cons a b painted plain hab hrest ih =>
    cases hrest with
    | nil => simpa using hab
    | cons hnext hrest =>
      rw [String.intercalate_cons_cons, String.intercalate_cons_cons]
      exact (hab.append hseparator.unpaintsTo).append ih

end UnpaintsTo

/-! ## The texts of a report -/

/-- The texts of an issue. -/
def Issue.texts (i : Issue) : List String := [i.scope, i.check, i.message] ++ i.file.toList

theorem Issue.forall_mem_texts {i : Issue} {P : String → Prop} : (∀ text ∈ i.texts, P text) ↔
    P i.scope ∧ P i.check ∧ P i.message ∧ ∀ file ∈ i.file, P file := by
  simp [texts, or_imp, forall_and]

/-- The texts of a skill and its issues. -/
def SkillResult.texts (r : SkillResult) : List String := r.skill :: r.issues.flatMap Issue.texts

namespace Report

/-- All texts of a report. -/
def texts (r : Report) : List String :=
  r.results.flatMap SkillResult.texts ++ (r.countIssues ++ r.workflowIssues).flatMap Issue.texts

/-! ## The table line by line -/

variable {i : Issue} {r : Report}

/-- Lines with colour, and the same lines without. -/
abbrev LinesUnpaintTo : List String → List String → Prop := List.Forall₂ UnpaintsTo

theorem linesUnpaintTo_map {α : Type} {xs : List α} {f g : α → String}
    (h : ∀ x ∈ xs, UnpaintsTo (f x) (g x)) : LinesUnpaintTo (xs.map f) (xs.map g) := by
  rw [LinesUnpaintTo, List.forall₂_map_left_iff, List.forall₂_map_right_iff, List.forall₂_same]
  exact h

theorem linesUnpaintTo_flatMap {α : Type} {xs : List α} {f g : α → List String}
    (h : ∀ x ∈ xs, LinesUnpaintTo (f x) (g x)) :
    LinesUnpaintTo (xs.flatMap f) (xs.flatMap g) := by
  induction xs with
  | nil => exact .nil
  | cons x xs ih =>
    obtain ⟨hx, hxs⟩ := List.forall_mem_cons.mp h
    exact List.rel_append hx (ih hxs)

theorem icon_unpaintsTo (s : Severity) : UnpaintsTo (icon true s) (icon false s) := by
  cases s <;> exact .apply _ (by decide)

/-- An icon in brackets. -/
theorem mark_unpaintsTo (opening : String) (h : EscapeFree opening) (s : Severity) :
    UnpaintsTo (opening ++ icon true s ++ "] ") (opening ++ icon false s ++ "] ") :=
  (h.unpaintsTo.append (icon_unpaintsTo s)).followedBy (by decide)

theorem escapeFree_fileSuffix (h : ∀ text ∈ i.texts, EscapeFree text) :
    EscapeFree (fileSuffix i) := by
  obtain ⟨-, -, -, hfile⟩ := Issue.forall_mem_texts.mp h
  unfold fileSuffix
  split
  · rename_i file hsome
    exact .append (.append (by decide) (hfile file hsome)) (by decide)
  · decide

theorem escapeFree_ruleLine {c : Char} (hc : c ≠ '\x1b') : EscapeFree (ruleLine c) := by
  simp [EscapeFree, ruleLine, hc.symm]

theorem banner_unpaintTo {title : String} (h : EscapeFree title) :
    LinesUnpaintTo (banner true title) (banner false title) := by
  have hrule : EscapeFree (ruleLine '=') := escapeFree_ruleLine (by decide)
  exact .cons hrule.unpaintsTo (.cons (.apply _ h) (.cons hrule.unpaintsTo .nil))

theorem heading_unpaintTo {title : String} (h : EscapeFree title) :
    LinesUnpaintTo (heading true title) (heading false title) := by
  have hrule : EscapeFree (ruleLine '-') := escapeFree_ruleLine (by decide)
  exact .cons (.apply _ h) (.cons hrule.unpaintsTo .nil)

theorem skillLines_unpaintTo {result : SkillResult}
    (h : ∀ text ∈ result.texts, EscapeFree text) :
    LinesUnpaintTo (skillLines true result) (skillLines false result) := by
  obtain ⟨hskill, hissues⟩ := List.forall_mem_cons.mp h
  have htitle : EscapeFree ("\n  " ++ result.skill ++ ":") :=
    .append (.append (by decide) hskill) (by decide)
  refine .cons htitle.unpaintsTo (linesUnpaintTo_map fun i hi => ?_)
  have htexts := List.forall_mem_flatMap.mp hissues i hi
  obtain ⟨-, hcheck, hmessage, -⟩ := Issue.forall_mem_texts.mp htexts
  have hmark := mark_unpaintsTo "    [" (by decide) i.severity
  exact (((hmark.followedBy hcheck).followedBy (by decide)).followedBy hmessage).followedBy
    (escapeFree_fileSuffix htexts)

theorem skillSection_unpaintTo {results : List SkillResult}
    (h : ∀ result ∈ results, ∀ text ∈ result.texts, EscapeFree text) :
    LinesUnpaintTo (skillSection true results) (skillSection false results) := by
  simp only [skillSection]
  split
  · exact .nil
  · refine List.rel_append (heading_unpaintTo (by decide)) (linesUnpaintTo_flatMap ?_)
    exact fun result hresult => skillLines_unpaintTo (h result (List.mem_filter.mp hresult).1)

theorem workflowLine_unpaintsTo (h : ∀ text ∈ i.texts, EscapeFree text) :
    UnpaintsTo (workflowLine true i) (workflowLine false i) := by
  obtain ⟨hname, hcheck, hmessage, -⟩ := Issue.forall_mem_texts.mp h
  have hscope : EscapeFree (if i.scope = "" then "" else "[" ++ i.scope ++ "] ") := by
    split
    · decide
    · exact .append (.append (by decide) hname) (by decide)
  have hmark := mark_unpaintsTo "  [" (by decide) i.severity
  exact ((((hmark.followedBy hscope).followedBy hcheck).followedBy (by decide)).followedBy
    hmessage).followedBy (escapeFree_fileSuffix h)

theorem countLine_unpaintsTo (h : ∀ text ∈ i.texts, EscapeFree text) :
    UnpaintsTo (countLine true i) (countLine false i) := by
  obtain ⟨-, -, hmessage, -⟩ := Issue.forall_mem_texts.mp h
  have hmark := mark_unpaintsTo "  [" (by decide) i.severity
  exact (hmark.followedBy hmessage).followedBy (escapeFree_fileSuffix h)

theorem issueSection_unpaintTo (title : String) {line : Bool → Issue → String}
    {issues : List Issue} (htitle : EscapeFree title)
    (hline : ∀ i ∈ issues, UnpaintsTo (line true i) (line false i)) :
    LinesUnpaintTo (issueSection true title line issues)
      (issueSection false title line issues) := by
  unfold issueSection
  split
  · exact .nil
  · have hempty : EscapeFree "" := by decide
    exact .cons hempty.unpaintsTo
      (List.rel_append (heading_unpaintTo htitle) (linesUnpaintTo_map hline))

theorem status_unpaintsTo (r : Report) : UnpaintsTo (r.status true) (r.status false) := by
  unfold status
  split
  · exact .apply _ (by decide)
  · split
    · exact .apply _ (by decide)
    · exact .apply _ (by decide)

theorem summaryLines_unpaintTo (r : Report) :
    LinesUnpaintTo (summaryLines true r) (summaryLines false r) := by
  have hempty : UnpaintsTo "" "" := EscapeFree.unpaintsTo (by decide)
  have htotal : ∀ (label : String) (n : Nat), EscapeFree label →
      UnpaintsTo (label ++ toString n) (label ++ toString n) :=
    fun label n hlabel => (hlabel.append (escapeFree_toString n)).unpaintsTo
  have hstatus : UnpaintsTo ("  " ++ r.status true) ("  " ++ r.status false) :=
    (EscapeFree.unpaintsTo (by decide)).append (status_unpaintsTo r)
  refine .cons hempty (List.rel_append (banner_unpaintTo (by decide)) ?_)
  exact .cons (htotal _ _ (by decide)) (.cons (htotal _ _ (by decide))
    (.cons (htotal _ _ (by decide)) (.cons hempty (.cons hstatus (.cons hempty .nil)))))

/-- **Colour changes only colour**: deleting the sequences from the coloured table gives the plain
one, if the texts of the report have no escapes. -/
theorem plainText_renderTable (h : ∀ text ∈ r.texts, EscapeFree text) :
    plainText (r.renderTable true) = r.renderTable false := by
  obtain ⟨hresults, hissues⟩ := List.forall_mem_append.mp h
  have hresults := List.forall_mem_flatMap.mp hresults
  obtain ⟨hcounts, hworkflow⟩ := List.forall_mem_append.mp (List.forall_mem_flatMap.mp hissues)
  have hempty : UnpaintsTo "" "" := EscapeFree.unpaintsTo (by decide)
  have htitle : LinesUnpaintTo (banner true "SKILL VALIDATION REPORT" ++ [""])
      (banner false "SKILL VALIDATION REPORT" ++ [""]) :=
    List.rel_append (banner_unpaintTo (by decide)) (.cons hempty .nil)
  have hskills := List.rel_append htitle (skillSection_unpaintTo hresults)
  have hworkflow := issueSection_unpaintTo "WORKFLOW ISSUES:" (by decide) fun i hi =>
    workflowLine_unpaintsTo (hworkflow i hi)
  have hcounts := issueSection_unpaintTo "COUNT CONSISTENCY ISSUES:" (by decide) fun i hi =>
    countLine_unpaintsTo (hcounts i hi)
  have hsections := List.rel_append (List.rel_append hskills hworkflow) hcounts
  have hlines := List.rel_append hsections (summaryLines_unpaintTo r)
  exact (UnpaintsTo.intercalate (by decide) hlines).plainText_eq

/-- A report with an issue in every section. -/
def mixedReport : Report where
  results := [⟨"sorting", [⟨"sorting", "name-format", .error, "No name", some "sorting/SKILL.md"⟩]⟩]
  countIssues := [⟨"__counts__", "count-consistency", .warning, "Of 5 skills [31m found", none⟩]
  workflowIssues := [⟨"", "manifest-dag", .error, "Circular dependency", none⟩]

theorem plainText_renderTable_mixedReport : (∀ text ∈ mixedReport.texts, EscapeFree text) ∧
    plainText (mixedReport.renderTable true) = mixedReport.renderTable false := by
  have hfree : ∀ text ∈ mixedReport.texts, EscapeFree text := by decide
  exact ⟨hfree, plainText_renderTable hfree⟩

end Report

end SkillLint
