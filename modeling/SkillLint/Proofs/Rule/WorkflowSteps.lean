import SkillLint.Proofs.Markdown.SectionBounds
import SkillLint.Proofs.Rule.SectionOrder
import SkillLint.Rule.Steps

/-!
# The section with the core workflow

The heading of the section is the leftmost text of number signs and the words of the heading, with
blanks between them (`IsCoreHeading`), and its content goes up to the next section.  The rule counts
the lines of the content that are steps: those that start with a number, a dot and a blank, and
those but the last that are a number and a dot (`stepsAmong`).

The blank of a step may be the line feed that ends its line, so the steps can be counted as matches
of one pattern too, each behind the one before (`finds_iff`).  **The steps between the heading and
the next section are all that the rule depends on** (`tellsSteps_coreWorkflow`).
-/

namespace SkillLint.Rule

open SkillLint.Text SkillLint.Markdown

variable {tree : FileTree} {skill : Skill} {doc : Document} {s line rest t : List Char} {n : Nat}
  {isLast : Bool}

/-! ## The heading -/

/-- The heading of a core workflow: number signs and two words, with blanks between them, of which
there may be none before the first word. -/
def IsCoreHeading (h : List Char) : Prop :=
  ∃ gap gap', isAllBlank gap = true ∧ isAllBlank gap' = true ∧ gap' ≠ [] ∧
    h = "##".toList ++ (gap ++ ("Core".toList ++ (gap' ++ "Workflow".toList)))

theorem recognizes_coreWorkflowHeading? : Recognizes coreWorkflowHeading? IsCoreHeading := by
  intro s r
  constructor
  · intro h
    obtain ⟨afterSigns, hsigns, hrest⟩ := Option.bind_eq_some_iff.mp h
    obtain ⟨afterCore, hcore, hrest⟩ := Option.bind_eq_some_iff.mp hrest
    obtain ⟨afterGap, hgap', hworkflow⟩ := Option.bind_eq_some_iff.mp hrest
    obtain ⟨gap', hblank', hne, rfl⟩ := exists_gap_of_dropBlanks? hgap'
    obtain ⟨gap, hblank, hgap⟩ : ∃ gap, isAllBlank gap = true ∧
        afterSigns = gap ++ afterSigns.dropWhile isBlank :=
      ⟨_, List.all_takeWhile, List.takeWhile_append_dropWhile.symm⟩
    refine ⟨_, ⟨gap, gap', hblank, hblank', hne, rfl⟩, ?_⟩
    rw [dropPrefix?_eq_some_iff.mp hcore, dropPrefix?_eq_some_iff.mp hworkflow] at hgap
    rw [dropPrefix?_eq_some_iff.mp hsigns, hgap]
    simp only [List.append_assoc]
  · rintro ⟨h, ⟨gap, gap', hgap, hgap', hne, rfl⟩, rfl⟩
    have hcore : (gap ++ ("Core".toList ++ (gap' ++ ("Workflow".toList ++ r)))).dropWhile isBlank =
        "Core".toList ++ (gap' ++ ("Workflow".toList ++ r)) := dropWhile_gap hgap (c := 'C') rfl
    have hworkflow : dropBlanks? (gap' ++ ("Workflow".toList ++ r)) =
        some ("Workflow".toList ++ r) := dropBlanks?_gap hgap' hne (c := 'W') rfl
    simp only [coreWorkflowHeading?, List.append_assoc, dropPrefix?_append, Option.bind_eq_bind,
      Option.bind_some, hcore, hworkflow]

theorem signed_isCoreHeading : Signed IsCoreHeading := by
  rintro h ⟨gap, gap', hgap, hgap', -, rfl⟩
  refine ⟨gap ++ ("Core".toList ++ (gap' ++ "Workflow".toList)), ?_, ?_, rfl⟩
  · simp
  · simp only [List.mem_append, not_or]
    exact ⟨notMem_of_isAllBlank (by decide) hgap, by decide,
      notMem_of_isAllBlank (by decide) hgap', by decide⟩

/-! ## Steps -/

/-- A number: decimal digits, at least one. -/
def IsNumber (digits : List Char) : Prop := digits ≠ [] ∧ digits.all isDecimalDigit = true

/-- The line starts with a number, a dot and a blank. -/
def StartsStep (line : List Char) : Prop :=
  ∃ digits c text, IsNumber digits ∧ isBlank c = true ∧ line = digits ++ '.' :: c :: text

/-- The line is a number and a dot. -/
def IsBareStep (line : List Char) : Prop := ∃ digits, IsNumber digits ∧ line = digits ++ ['.']

/-- A number goes up to what is no digit. -/
theorem span_number {digits : List Char} {c : Char} (h : IsNumber digits)
    (hc : isDecimalDigit c = false) :
    (digits ++ c :: t).span isDecimalDigit = (digits, c :: t) := by
  have hdigits := List.all_eq_true.mp h.2
  have hstop : ¬ isDecimalDigit c = true := Bool.eq_false_iff.mp hc
  rw [List.span_eq_takeWhile_dropWhile, List.takeWhile_append_of_pos hdigits,
    List.dropWhile_append_of_pos hdigits, List.takeWhile_cons_of_neg hstop,
    List.dropWhile_cons_of_neg hstop, List.append_nil]

theorem span_number_dot {digits : List Char} (h : IsNumber digits) :
    (digits ++ '.' :: t).span isDecimalDigit = (digits, '.' :: t) :=
  span_number h (by decide)

theorem of_span_eq {d : Char} {digits : List Char}
    (h : line.span isDecimalDigit = (d :: digits, t)) :
    IsNumber (d :: digits) ∧ line = d :: digits ++ t := by
  rw [List.span_eq_takeWhile_dropWhile, Prod.mk.injEq] at h
  obtain ⟨hdigits, ht⟩ := h
  refine ⟨⟨List.cons_ne_nil _ _, hdigits ▸ List.all_takeWhile⟩, ?_⟩
  rw [← hdigits, ← ht, List.takeWhile_append_dropWhile]

/-- **The steps are the lines that start one**, and those but the last that are a number and a
dot. -/
theorem isStep_eq_true_iff :
    isStep isLast line = true ↔ StartsStep line ∨ (isLast = false ∧ IsBareStep line) := by
  constructor
  · intro h
    rw [isStep] at h
    split at h
    · rename_i d digits hspan
      obtain ⟨hnumber, hline⟩ := of_span_eq hspan
      exact .inr ⟨by simpa using h, _, hnumber, hline⟩
    · rename_i d digits c text hspan
      obtain ⟨hnumber, hline⟩ := of_span_eq hspan
      exact .inl ⟨_, c, text, hnumber, h, hline⟩
    · cases h
  · rintro (⟨digits, c, text, hnumber, hc, rfl⟩ | ⟨rfl, digits, hnumber, rfl⟩)
    · obtain ⟨d, digits, rfl⟩ := List.exists_cons_of_ne_nil hnumber.1
      rw [isStep, span_number_dot hnumber]
      exact hc
    · obtain ⟨d, digits, rfl⟩ := List.exists_cons_of_ne_nil hnumber.1
      rw [isStep, span_number_dot hnumber]
      rfl

theorem isStep_true_iff : isStep true line = true ↔ StartsStep line :=
  isStep_eq_true_iff.trans (by simp)

theorem isStep_false_iff : isStep false line = true ↔ StartsStep line ∨ IsBareStep line :=
  isStep_eq_true_iff.trans (by simp)

instance : DecidablePred StartsStep := fun _ => decidable_of_iff _ isStep_true_iff

instance : DecidablePred fun line => StartsStep line ∨ IsBareStep line := fun _ =>
  decidable_of_iff _ isStep_false_iff

/-- The number of steps among lines of which the last one has no end. -/
def stepsAmong (lines : List (List Char)) : Nat :=
  lines.dropLast.countP (fun line => StartsStep line ∨ IsBareStep line) +
    lines.getLast?.toList.countP (fun line => StartsStep line)

theorem stepsAmong_singleton (line : List Char) :
    stepsAmong [line] = if StartsStep line then 1 else 0 := by
  simp [stepsAmong, List.countP_cons]

theorem stepsAmong_cons {rest : List (List Char)} (line : List Char) (hrest : rest ≠ []) :
    stepsAmong (line :: rest) =
      (if StartsStep line ∨ IsBareStep line then 1 else 0) + stepsAmong rest := by
  obtain ⟨next, rest, rfl⟩ := List.exists_cons_of_ne_nil hrest
  rw [stepsAmong, stepsAmong, List.dropLast_cons_cons, List.getLast?_cons_cons, List.countP_cons]
  simp only [decide_eq_true_eq]
  omega

theorem stepCount_eq (lines : List (List Char)) : stepCount lines = stepsAmong lines := by
  fun_induction stepCount lines with
  | case1 => rfl
  | case2 line h => rw [stepsAmong_singleton, if_pos (isStep_true_iff.mp h)]
  | case3 line h => rw [stepsAmong_singleton, if_neg (mt isStep_true_iff.mpr h)]
  | case4 line rest hrest ih =>
    rw [stepsAmong_cons line hrest, ih]
    simp only [isStep_false_iff]

/-! ## Matches -/

/-- A number, a dot and a blank. -/
def IsMarker (s : List Char) : Prop :=
  ∃ digits c, IsNumber digits ∧ isBlank c = true ∧ s = digits ++ ['.', c]

/-- So many markers are found, each behind the one before and at the start of a line, and none is
passed over.  The first argument tells that a line starts here. -/
inductive Finds : Bool → List Char → Nat → Prop where
  | done {start : Bool} : Finds start [] 0
  | found {s marker rest : List Char} {n : Nat} (hs : s = marker ++ rest)
      (hmarker : IsMarker marker) (h : Finds (marker.getLast? == some '\n') rest n) : Finds true s (n + 1)
  | pass {start : Bool} {c : Char} {rest : List Char} {n : Nat}
      (hnone : start = true → ∀ marker, IsMarker marker → ¬ marker <+: c :: rest)
      (h : Finds (c == '\n') rest n) : Finds start (c :: rest) n

/-- There is one way only to start with a marker. -/
theorem IsMarker.append_inj {marker marker' rest' : List Char} (h : IsMarker marker)
    (h' : IsMarker marker') (heq : marker ++ rest = marker' ++ rest') :
    marker = marker' ∧ rest = rest' := by
  obtain ⟨digits, c, hnumber, -, rfl⟩ := h
  obtain ⟨digits', c', hnumber', -, rfl⟩ := h'
  have hspan := congrArg (List.span isDecimalDigit) heq
  simp only [List.append_assoc, List.cons_append, List.nil_append, span_number_dot hnumber,
    span_number_dot hnumber', Prod.mk.injEq, List.cons.injEq, true_and] at hspan
  obtain ⟨rfl, rfl, rfl⟩ := hspan
  exact ⟨rfl, rfl⟩

theorem IsMarker.ne_nil {marker : List Char} (h : IsMarker marker) : marker ≠ [] := by
  obtain ⟨digits, c, -, -, rfl⟩ := h
  simp

/-- The number of markers that are found is certain. -/
theorem Finds.unique {start : Bool} {n' : Nat} (h : Finds start s n) (h' : Finds start s n') :
    n = n' := by
  induction h generalizing n' with
  | done =>
    cases h' with
    | done => rfl
    | found hs hmarker _ => exact absurd (List.append_eq_nil_iff.mp hs.symm).1 hmarker.ne_nil
  | found hs hmarker _ ih =>
    cases h' with
    | done => exact absurd (List.append_eq_nil_iff.mp hs.symm).1 hmarker.ne_nil
    | found hs' hmarker' h' =>
      obtain ⟨rfl, rfl⟩ := hmarker.append_inj hmarker' (hs.symm.trans hs')
      rw [ih h']
    | pass hnone _ => exact absurd ⟨_, hs.symm⟩ (hnone rfl _ hmarker)
  | pass hnone _ ih =>
    cases h' with
    | found hs hmarker _ => exact absurd ⟨_, hs.symm⟩ (hnone rfl _ hmarker)
    | pass _ h' => exact ih h'

/-- Within a line no marker is found. -/
theorem Finds.within {c : Char} (h : Finds (c == '\n') rest n) : Finds false (c :: rest) n :=
  .pass (fun hstart => absurd hstart Bool.false_ne_true) h

theorem finds_append (hs : '\n' ∉ s) (h : Finds false t n) : Finds false (s ++ t) n := by
  induction s with
  | nil => exact h
  | cons c s ih =>
    obtain ⟨hc, hs⟩ := not_or.mp (mt List.mem_cons.mpr hs)
    have hbreak : (c == '\n') = false := beq_eq_false_iff_ne.mpr (Ne.symm hc)
    exact .within (hbreak ▸ ih hs)

/-- A line that starts a step has one marker. -/
theorem finds_of_startsStep (hs : '\n' ∉ s) (h : Finds false t n) (hstep : StartsStep s) :
    Finds true (s ++ t) (n + 1) := by
  obtain ⟨digits, c, text, hnumber, hc, rfl⟩ := hstep
  have hshape : digits ++ '.' :: c :: text ++ t = digits ++ ['.', c] ++ (text ++ t) := by simp
  have hlast : ((digits ++ ['.', c]).getLast? == some '\n') = false := by
    have hne : c ≠ '\n' := fun hbreak => hs (by simp [hbreak])
    simpa using hne
  refine .found hshape ⟨digits, c, hnumber, hc, rfl⟩ ?_
  rw [hlast]
  exact finds_append (fun hmem => hs (by simp [hmem])) h

/-- Where no marker starts, it does not matter whether a line does. -/
theorem Finds.at_start (h : Finds false s n) (hnone : ∀ marker, IsMarker marker → ¬ marker <+: s) :
    Finds true s n := by
  cases h with
  | done => exact .done
  | pass _ h => exact .pass (fun _ => hnone) h

theorem startsStep_of_marker {marker : List Char} (hmarker : IsMarker marker)
    (h : marker <+: s) : StartsStep s := by
  obtain ⟨digits, c, hnumber, hc, rfl⟩ := hmarker
  obtain ⟨text, rfl⟩ := h
  exact ⟨digits, c, text, hnumber, hc, by simp⟩

/-- The blank of a marker may be the line feed behind the line, but a marker goes no further. -/
theorem step_of_marker {marker : List Char} (hmarker : IsMarker marker)
    (h : marker <+: s ++ '\n' :: t) : StartsStep s ∨ IsBareStep s := by
  obtain ⟨digits, c, hnumber, hc, rfl⟩ := hmarker
  have hbreak : '\n' ∉ digits ++ ['.'] := by
    have hdigits : '\n' ∉ digits := fun hmem =>
      absurd (List.all_eq_true.mp hnumber.2 _ hmem) (by decide)
    simpa using hdigits
  have hdot : digits ++ ['.'] <+: digits ++ ['.', c] := ⟨[c], by simp⟩
  obtain ⟨text, rfl⟩ := prefix_of_prefix_append_cons hbreak (hdot.trans h)
  cases text with
  | nil => exact .inr ⟨digits, hnumber, by simp⟩
  | cons d text =>
    refine .inl ⟨digits, d, text, hnumber, ?_, by simp⟩
    have heq : ['.', c] <+: '.' :: d :: (text ++ '\n' :: t) := by
      simpa [List.append_assoc] using h
    simp only [List.cons_prefix_cons, true_and] at heq
    exact heq.1 ▸ hc

theorem finds_steps (s : List Char) : Finds true s (stepsAmong (splitLines s)) := by
  induction s using lines_induction with
  | last s hs =>
    rw [splitLines, List.splitOn_eq_singleton hs, stepsAmong_singleton]
    by_cases hstep : StartsStep s
    · rw [if_pos hstep]
      simpa using finds_of_startsStep hs .done hstep
    · rw [if_neg hstep]
      have hnone : Finds false s 0 := by simpa using finds_append hs .done
      exact hnone.at_start fun marker hmarker h => hstep (startsStep_of_marker hmarker h)
  | line s t hs ih =>
    have hne : splitLines t ≠ [] := List.splitOn_ne_nil _ _
    rw [splitLines, List.splitOn_append_cons_self_of_not_mem hs, ← splitLines,
      stepsAmong_cons s hne, Nat.add_comm]
    have hbreak : Finds false ('\n' :: t) (stepsAmong (splitLines t)) := .within ih
    by_cases hstep : StartsStep s ∨ IsBareStep s
    · rw [if_pos hstep]
      rcases hstep with hstep | ⟨digits, hnumber, rfl⟩
      · exact finds_of_startsStep hs hbreak hstep
      · have hshape : digits ++ ['.'] ++ '\n' :: t = digits ++ ['.', '\n'] ++ t := by simp
        refine .found hshape ⟨digits, '\n', hnumber, rfl, rfl⟩ ?_
        simpa using ih
    · rw [if_neg hstep]
      have hnone : Finds false (s ++ '\n' :: t) (stepsAmong (splitLines t)) :=
        finds_append hs hbreak
      exact hnone.at_start fun marker hmarker h => hstep (step_of_marker hmarker h)

/-- **The markers that are found are as many as the lines that are steps.** -/
theorem finds_iff : Finds true s n ↔ n = stepsAmong (splitLines s) := by
  constructor
  · exact fun h => h.unique (finds_steps s)
  · rintro rfl
    exact finds_steps s

/-! ## The rule -/

/-- What is said of a body without a core workflow. -/
def missingWorkflowIssue (skill : Skill) (doc : Document) : Issue :=
  ⟨skill.id, "core-workflow-steps", .warning, "Missing '## Core Workflow' section",
    some doc.path.text⟩

/-- What is said of a core workflow with the number of steps. -/
def stepsIssue (skill : Skill) (doc : Document) (steps : Nat) : Issue :=
  ⟨skill.id, "core-workflow-steps", .warning,
    "Core Workflow has " ++ toString steps ++ " steps (expected 5)", some doc.path.text⟩

theorem check_coreWorkflow_of_not_hasHeading (hdoc : skill.document? tree = some doc)
    (h : ¬ HasHeading IsCoreHeading doc.body.toList) :
    coreWorkflow.check tree skill = [missingWorkflowIssue skill doc] := by
  have hnone : sectionAfter? coreWorkflowHeading? doc.body.toList = none := by
    rw [sectionAfter?, restAfter?_eq_none recognizes_coreWorkflowHeading? h, Option.map_none]
  simp only [coreWorkflow, onDocument, hdoc, hnone]
  rfl

theorem stepsMessage_eq (steps : Nat) :
    "Core Workflow has " ++ toString steps ++ " steps (expected " ++
        toString Schema.coreWorkflowSteps ++ ")" =
      "Core Workflow has " ++ toString steps ++ " steps (expected 5)" := by
  have hexpected : " steps (expected " ++ (toString Schema.coreWorkflowSteps ++ ")") =
      " steps (expected 5)" := by decide
  rw [String.append_assoc, String.append_assoc, hexpected]

/-- **The steps in the content of the section are counted**, and five of them are right. -/
theorem check_coreWorkflow_of_marks {o : Outline} (hdoc : skill.document? tree = some doc)
    (htext : doc.body.toList = o.text) (hmarks : o.Marks IsCoreHeading) :
    coreWorkflow.check tree skill =
      if stepsAmong (splitLines o.content) = 5 then []
      else [stepsIssue skill doc (stepsAmong (splitLines o.content))] := by
  have hsection : sectionAfter? coreWorkflowHeading? doc.body.toList = some o.content :=
    htext ▸ hmarks.sectionAfter?_eq recognizes_coreWorkflowHeading?
  simp only [coreWorkflow, onDocument, hdoc, hsection, stepCount_eq, stepsMessage_eq]
  by_cases hfive : stepsAmong (splitLines o.content) = 5
  · have hright : stepsAmong (splitLines o.content) = Schema.coreWorkflowSteps := hfive
    rw [if_pos hfive, if_pos hright, List.map_nil]
  · have hwrong : stepsAmong (splitLines o.content) ≠ Schema.coreWorkflowSteps := hfive
    rw [if_neg hfive, if_neg hwrong]
    rfl

/-- **The steps are told**: nothing is said of five, and of another number one warning. -/
def TellsSteps (skill : Skill) (doc : Document) (steps : Nat) (issues : List Issue) : Prop :=
  (issues = [] ↔ steps = 5) ∧ (steps ≠ 5 → issues = [stepsIssue skill doc steps])

/-- **The core workflow is told by its section alone.**  A body without the heading is said to lack
it.  In any other the steps in the content behind the leftmost heading are told, as many as there
are markers, and nothing changes if something is rewritten that lies outside of the section. -/
theorem tellsSteps_coreWorkflow (hdoc : skill.document? tree = some doc) :
    (¬ HasHeading IsCoreHeading doc.body.toList →
      coreWorkflow.check tree skill = [missingWorkflowIssue skill doc]) ∧
    (HasHeading IsCoreHeading doc.body.toList →
      ∃ o : Outline, doc.body.toList = o.text ∧ o.Marks IsCoreHeading) ∧
    ∀ o : Outline, doc.body.toList = o.text → o.Marks IsCoreHeading →
      TellsSteps skill doc (stepsAmong (splitLines o.content)) (coreWorkflow.check tree skill) ∧
      (∀ n, Finds true o.content n ↔ n = stepsAmong (splitLines o.content)) ∧
      ∀ o', o.Rewrites IsCoreHeading o' → ∀ tree' skill' doc', skill'.document? tree' = some doc' →
        doc'.body.toList = o'.text → skill'.id = skill.id → doc'.path = doc.path →
          coreWorkflow.check tree' skill' = coreWorkflow.check tree skill := by
  refine ⟨check_coreWorkflow_of_not_hasHeading hdoc, fun hheading => ?_, fun o htext hmarks => ?_⟩
  · obtain ⟨o, htext, hmarks⟩ := Outline.exists_marks hheading
    exact ⟨o, htext.symm, hmarks⟩
  have hcheck := check_coreWorkflow_of_marks hdoc htext hmarks
  refine ⟨?tells, fun _ => finds_iff, ?rewrites⟩
  case tells =>
    rw [TellsSteps, hcheck]
    by_cases hfive : stepsAmong (splitLines o.content) = 5
    · simp [hfive]
    · simp [hfive]
  case rewrites =>
    intro o' hrewrites tree' skill' doc' hdoc' htext' hid hpath
    have hmarks' := hmarks.rewrite signed_isCoreHeading hrewrites
    rw [hcheck, check_coreWorkflow_of_marks hdoc' htext' hmarks', hrewrites.content_eq]
    simp only [stepsIssue, hid, hpath]

/-- A body with a heading on two lines, numbers that are no steps, and one behind the section. -/
def windingBody : String :=
  "\n##\nCore  Workflow\n1. Read\n2.\n3) Plan\n10. Edit\n## Notes\n1. Wait\n"

theorem tellsSteps_windingBody : ∃ doc,
    sectionSkill.document? (sectionTree windingBody) = some doc ∧
      HasHeading IsCoreHeading doc.body.toList ∧
      coreWorkflow.check (sectionTree windingBody) sectionSkill =
        [stepsIssue sectionSkill doc 3] := by
  have hread : ∃ doc ∈ sectionSkill.document? (sectionTree windingBody),
      (sectionAfter? coreWorkflowHeading? doc.body.toList).map
        (fun content => stepCount (splitLines content)) = some 3 := by
    decide +kernel
  obtain ⟨doc, hdoc, hsection⟩ := hread
  obtain ⟨content, hcontent, hcount⟩ := Option.map_eq_some_iff.mp hsection
  have hheading : HasHeading IsCoreHeading doc.body.toList := by
    by_contra hnone
    rw [sectionAfter?, restAfter?_eq_none recognizes_coreWorkflowHeading? hnone] at hcontent
    cases hcontent
  obtain ⟨-, hexists, htells⟩ := tellsSteps_coreWorkflow hdoc
  obtain ⟨o, htext, hmarks⟩ := hexists hheading
  have hsame : some content = some o.content :=
    hcontent.symm.trans (htext ▸ hmarks.sectionAfter?_eq recognizes_coreWorkflowHeading?)
  have hsteps : stepsAmong (splitLines o.content) = 3 := by
    rw [← stepCount_eq, ← Option.some.inj hsame, hcount]
  obtain ⟨⟨-, hwrong⟩, -⟩ := htells o htext hmarks
  rw [hsteps] at hwrong
  exact ⟨doc, hdoc, hheading, hwrong (by decide)⟩

end SkillLint.Rule
