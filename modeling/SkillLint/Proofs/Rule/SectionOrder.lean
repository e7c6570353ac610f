import Mathlib.Data.List.Chain
import SkillLint.FileTree.Build
import SkillLint.Proofs.Text.Trim
import SkillLint.Rule.Order

/-!
# The order of sections, line by line

The headings of a body can be told line by line: two number signs, a blank, and on the same line a
title (`headingTitle?`).  Those with a known title have ranks, and the ranks never decrease if they
do not between neighbours (`firstInversion?_eq_none_iff`).

The rule reads the lines with a state, though.  Number signs with no title on their line await one,
and the next line that is not blank is taken for the title, even if it is a heading (`sectionAt`).
**The order of the known headings is judged if the lines are settled**: no line that is awaited as a
title is a known heading, or would be a known title.  In other bodies some line is taken for
something else than the heading that it is (`judgesOrder_sectionOrder`), and number signs in front
of a heading are enough to hide it (`not_judgesOrder`).
-/

namespace SkillLint.Rule

open SkillLint.Text

variable {tree : FileTree} {skill : Skill} {doc : Document} {found : List (Nat × String)}
  {line : List Char} {lines : List (List Char)} {awaits : Bool}

/-! ## Headings -/

/-- The title of a line that is a heading. -/
def headingTitle? (line : List Char) : Option (List Char) :=
  match dropPrefix? "##".toList line with
  | some (c :: title) => if isBlank c && !isAllBlank title then some (trim title) else none
  | _ => none

/-- The known section with the title. -/
def knownTitle? (title : List Char) : Option (Nat × String) :=
  (sectionRank? (String.ofList title)).map fun rank => (rank, String.ofList title)

/-- The known section with the line for its heading. -/
def knownHeading? (line : List Char) : Option (Nat × String) :=
  (headingTitle? line).bind knownTitle?

/-- The known sections of a body by their headings. -/
def knownHeadings (body : String) : List (Nat × String) :=
  (splitLines body.toList).filterMap knownHeading?

/-- The line has the number signs of a heading and no title. -/
def isBareHeading (line : List Char) : Bool := (dropPrefix? "##".toList line).any isAllBlank

/-- A title is awaited behind the line. -/
def awaitsAfter (awaits : Bool) (line : List Char) : Bool :=
  if awaits then isAllBlank line else isBareHeading line

/-- The known section that the line is taken to name. -/
def sectionAt (awaits : Bool) (line : List Char) : Option (Nat × String) :=
  if awaits then knownTitle? (trim line) else knownHeading? line

/-- The known sections that the lines are taken to name. -/
def sectionsFrom : Bool → List (List Char) → List (Nat × String)
  | _, [] => []
  | awaits, line :: rest =>
    (sectionAt awaits line).toList ++ sectionsFrom (awaitsAfter awaits line) rest

/-- A blank line names no section. -/
theorem knownTitle?_trim_of_blank (h : isAllBlank line = true) :
    knownTitle? (trim line) = none := by
  rw [trim_of_isAllBlank h]
  decide

theorem filterMap_cons_toList {α β : Type} (f : α → Option β) (a : α) (l : List α) :
    (a :: l).filterMap f = (f a).toList ++ l.filterMap f := by
  rw [List.filterMap_eq_flatMap_toList, List.filterMap_eq_flatMap_toList, List.flatMap_cons]

/-- **What the titles are read from**: each line, by what is awaited there. -/
theorem filterMap_titles (awaits : Bool) (lines : List (List Char)) :
    (Markdown.titles awaits lines).filterMap knownTitle? = sectionsFrom awaits lines := by
  induction lines generalizing awaits with
  | nil => cases awaits <;> rfl
  | cons line rest ih =>
    rw [sectionsFrom]
    cases awaits with
    | true =>
      simp only [Markdown.titles, sectionAt, awaitsAfter, if_true]
      cases hblank : isAllBlank line with
      | true => simp [knownTitle?_trim_of_blank hblank, ih]
      | false => simp [filterMap_cons_toList, ih]
    | false =>
      simp only [Markdown.titles, sectionAt, awaitsAfter, Bool.false_eq_true, if_false,
        knownHeading?, headingTitle?, isBareHeading]
      cases hdrop : dropPrefix? "##".toList line with
      | none => simp [ih]
      | some title =>
        cases title with
        | nil => simp [ih, isAllBlank]
        | cons c title =>
          cases hc : isBlank c with
          | false => simp [ih, isAllBlank, hc]
          | true =>
            cases hblank : isAllBlank title with
            | true => simp [ih, isAllBlank_cons, hc, hblank]
            | false =>
              simp [ih, isAllBlank_cons, hc, hblank, filterMap_cons_toList, trim_cons_of_blank]

theorem knownSections_eq (body : String) :
    knownSections body = sectionsFrom false (splitLines body.toList) :=
  filterMap_titles false _

/-! ## Neighbours -/

/-- The ranks of neighbours nowhere decrease if and only if no rank is less than one before it. -/
theorem firstInversion?_eq_none_iff :
    firstInversion? found = none ↔ found.Pairwise fun a b => a.1 ≤ b.1 := by
  have htrans : IsTrans (Nat × String) fun a b => a.1 ≤ b.1 := ⟨fun _ _ _ => le_trans⟩
  rw [← List.isChain_iff_pairwise]
  fun_induction firstInversion? found with
  | case1 a b rest hlt => simp [hlt]
  | case2 a b rest hle ih => simp [ih, not_lt.mp hle]
  | case3 found hshort =>
    cases found with
    | nil => simp
    | cons a rest =>
      cases rest with
      | nil => simp
      | cons b rest => exact absurd rfl (hshort a b rest)

/-- The inversion that is found is the first. -/
theorem exists_of_firstInversion? {current next : String}
    (h : firstInversion? found = some (current, next)) :
    ∃ before a b after, found = before ++ a :: b :: after ∧
      (before ++ [a]).Pairwise (fun a b => a.1 ≤ b.1) ∧ b.1 < a.1 ∧ current = a.2 ∧ next = b.2 := by
  have htrans : IsTrans (Nat × String) fun a b => a.1 ≤ b.1 := ⟨fun _ _ _ => le_trans⟩
  simp only [← List.isChain_iff_pairwise]
  fun_induction firstInversion? found with
  | case1 a b rest hlt =>
    cases h
    exact ⟨[], a, b, rest, rfl, List.isChain_singleton a, hlt, rfl, rfl⟩
  | case2 a b rest hle ih =>
    obtain ⟨before, c, d, after, hfound, hchain, hlt, hcurrent, hnext⟩ := ih h
    refine ⟨a :: before, c, d, after, by rw [hfound, List.cons_append], ?_, hlt, hcurrent, hnext⟩
    rw [List.cons_append]
    cases before with
    | nil =>
      obtain ⟨rfl, -⟩ := List.cons.inj hfound
      exact List.isChain_pair.mpr (not_lt.mp hle)
    | cons e before =>
      obtain ⟨rfl, -⟩ := List.cons.inj hfound
      exact List.isChain_cons_cons.mpr ⟨not_lt.mp hle, hchain⟩
  | case3 => cases h

/-- What is said of two sections that should change places. -/
def orderIssue (skill : Skill) (doc : Document) (current next : String) : Issue :=
  ⟨skill.id, "section-order", .warning,
    "Section order: '" ++ current ++ "' should come after '" ++ next ++ "'", some doc.path.text⟩

/-- **The order of the sections is judged**: nothing is said if no section stands behind one of
greater rank, and otherwise one warning names the first two neighbours of which the ranks
decrease. -/
def JudgesOrder (skill : Skill) (doc : Document) (found : List (Nat × String))
    (issues : List Issue) : Prop :=
  (issues = [] ↔ found.Pairwise fun a b => a.1 ≤ b.1) ∧
    (issues ≠ [] → ∃ before a b after, found = before ++ a :: b :: after ∧
      (before ++ [a]).Pairwise (fun a b => a.1 ≤ b.1) ∧ b.1 < a.1 ∧
        issues = [orderIssue skill doc a.2 b.2])

/-- The rule judges the order of the sections that the lines are taken to name. -/
theorem judgesOrder_sectionsFrom (hdoc : skill.document? tree = some doc) :
    JudgesOrder skill doc (sectionsFrom false (splitLines doc.body.toList))
      (sectionOrder.check tree skill) := by
  have hcheck : sectionOrder.check tree skill =
      ((firstInversion? (sectionsFrom false (splitLines doc.body.toList))).map fun pair =>
        orderIssue skill doc pair.1 pair.2).toList := by
    simp only [sectionOrder, onDocument, hdoc, knownSections_eq]
    cases firstInversion? (sectionsFrom false (splitLines doc.body.toList)) <;> rfl
  rw [JudgesOrder, hcheck, ← firstInversion?_eq_none_iff]
  cases hinversion : firstInversion? (sectionsFrom false (splitLines doc.body.toList)) with
  | none => simp
  | some pair =>
    obtain ⟨before, a, b, after, hfound, hbefore, hlt, hcurrent, hnext⟩ :=
      exists_of_firstInversion? hinversion
    refine ⟨by simp, fun _ => ⟨before, a, b, after, hfound, hbefore, hlt, ?_⟩⟩
    rw [Option.map_some, Option.toList_some, hcurrent, hnext]

/-! ## Settled lines -/

/-- **No line that is awaited as a title is a known heading, or would be a known title.** -/
def SettledFrom (awaits : Bool) (lines : List (List Char)) : Prop :=
  ∀ before line after, lines = before ++ line :: after → before.foldl awaitsAfter awaits = true →
    knownTitle? (trim line) = none ∧ knownHeading? line = none

theorem settledFrom_nil : SettledFrom awaits [] := by
  intro before line after h
  cases before <;> cases h

theorem settledFrom_cons : SettledFrom awaits (line :: lines) ↔
    (awaits = true → knownTitle? (trim line) = none ∧ knownHeading? line = none) ∧
      SettledFrom (awaitsAfter awaits line) lines := by
  constructor
  · intro h
    refine ⟨h [] line lines rfl, fun before next after hlines => ?_⟩
    exact h (line :: before) next after (by rw [hlines, List.cons_append])
  · rintro ⟨hline, hrest⟩ before next after hlines
    cases before with
    | nil =>
      obtain ⟨rfl, -⟩ := List.cons.inj hlines
      exact hline
    | cons first before =>
      obtain ⟨rfl, htail⟩ := List.cons.inj hlines
      exact hrest before next after htail

instance decidableSettledFrom : ∀ (awaits : Bool) (lines : List (List Char)),
    Decidable (SettledFrom awaits lines)
  | _, [] => isTrue settledFrom_nil
  | awaits, line :: lines =>
    have := decidableSettledFrom (awaitsAfter awaits line) lines
    decidable_of_iff _ settledFrom_cons.symm

/-- In settled lines the known headings are found. -/
theorem sectionsFrom_of_settled (h : SettledFrom awaits lines) :
    sectionsFrom awaits lines = lines.filterMap knownHeading? := by
  induction lines generalizing awaits with
  | nil => rfl
  | cons line rest ih =>
    obtain ⟨hline, hrest⟩ := settledFrom_cons.mp h
    have hsection : sectionAt awaits line = knownHeading? line := by
      cases awaits with
      | false => rfl
      | true =>
        obtain ⟨htitle, hheading⟩ := hline rfl
        rw [sectionAt, if_pos rfl, htitle, hheading]
    rw [sectionsFrom, ih hrest, hsection, filterMap_cons_toList]

/-- There are no number signs in a known title. -/
theorem notMem_of_knownTitle? {title : List Char} (h : knownTitle? title ≠ none) : '#' ∉ title := by
  have hsigns : ∀ known ∈ Schema.sectionOrder, '#' ∉ known.toList := by decide
  obtain ⟨found, hfound⟩ := Option.ne_none_iff_exists'.mp h
  obtain ⟨rank, hrank, -⟩ := Option.map_eq_some_iff.mp hfound
  obtain ⟨hlt, hbeq, -⟩ := List.findIdx?_eq_some_iff_getElem.mp hrank
  have hnone := hsigns _ (List.getElem_mem hlt)
  rwa [eq_of_beq hbeq, String.toList_ofList] at hnone

/-- What is a heading is not a title of its own. -/
theorem knownTitle?_of_heading (h : knownHeading? line ≠ none) :
    knownTitle? (trim line) = none := by
  obtain ⟨found, hfound⟩ := Option.ne_none_iff_exists'.mp h
  obtain ⟨title, htitle, -⟩ := Option.bind_eq_some_iff.mp hfound
  have hsign : '#' ∈ line := by
    rw [headingTitle?] at htitle
    cases hdrop : dropPrefix? "##".toList line with
    | none =>
      rw [hdrop] at htitle
      cases htitle
    | some rest => exact dropPrefix?_eq_some_iff.mp hdrop ▸ List.mem_cons_self
  obtain ⟨before, after, hbefore, hafter, hline⟩ := exists_around_trim line
  by_contra hknown
  have hnone : '#' ∉ before ++ trim line ++ after := by
    rw [List.mem_append, List.mem_append, not_or, not_or]
    exact ⟨⟨notMem_of_isAllBlank (by decide) hbefore, notMem_of_knownTitle? hknown⟩,
      notMem_of_isAllBlank (by decide) hafter⟩
  exact hnone (hline ▸ hsign)

/-- **Every line is taken for the heading that it is** if and only if the lines are settled. -/
theorem settledFrom_iff : SettledFrom awaits lines ↔ ∀ before line after,
    lines = before ++ line :: after →
      sectionAt (before.foldl awaitsAfter awaits) line = knownHeading? line := by
  refine forall_congr' fun before => forall_congr' fun line => forall_congr' fun after =>
    forall_congr' fun _ => ?_
  cases before.foldl awaitsAfter awaits with
  | false => simp [sectionAt]
  | true =>
    have hsection : sectionAt true line = knownTitle? (trim line) := rfl
    rw [hsection]
    constructor
    · intro h
      obtain ⟨htitle, hheading⟩ := h rfl
      rw [htitle, hheading]
    · intro heq _
      have hheading : knownHeading? line = none := by
        by_contra hknown
        exact hknown (heq ▸ knownTitle?_of_heading hknown)
      exact ⟨heq.trans hheading, hheading⟩

/-! ## The rule -/

/-- **The rule judges the order of the sections that the lines are taken to name.**  In settled
bodies, and only there, each line is taken for the known heading that it is, and then the order of
the known headings is judged. -/
theorem judgesOrder_sectionOrder (hdoc : skill.document? tree = some doc) :
    JudgesOrder skill doc (sectionsFrom false (splitLines doc.body.toList))
      (sectionOrder.check tree skill) ∧
    (SettledFrom false (splitLines doc.body.toList) ↔
      ∀ before line after, splitLines doc.body.toList = before ++ line :: after →
        sectionAt (before.foldl awaitsAfter false) line = knownHeading? line) ∧
    (SettledFrom false (splitLines doc.body.toList) →
      JudgesOrder skill doc (knownHeadings doc.body) (sectionOrder.check tree skill)) := by
  have hjudges := judgesOrder_sectionsFrom hdoc
  refine ⟨hjudges, settledFrom_iff, fun hsettled => ?_⟩
  rw [knownHeadings, ← sectionsFrom_of_settled hsettled]
  exact hjudges

/-- A skill whose document has the body. -/
def sectionTree (body : String) : FileTree :=
  (FileTree.empty []).writeFile ⟨"s/SKILL.md"⟩ ("---\nname: s\n---" ++ body).toUTF8

/-- The skill of that tree. -/
def sectionSkill : Skill := .ofDirectory ⟨"s"⟩ "s" .restricted

/-- A body in which number signs await a title, and two sections that should change places. -/
def awaitingBody : String := "\n##\nNotes\n## Constraints\n## Custom\n## Core Workflow\n"

theorem judgesOrder_awaitingBody : ∃ doc,
    sectionSkill.document? (sectionTree awaitingBody) = some doc ∧
      SettledFrom false (splitLines doc.body.toList) ∧
      JudgesOrder sectionSkill doc (knownHeadings doc.body)
        (sectionOrder.check (sectionTree awaitingBody) sectionSkill) := by
  have hread : ∃ doc ∈ sectionSkill.document? (sectionTree awaitingBody),
      doc.body = awaitingBody := by
    decide +kernel
  obtain ⟨doc, hdoc, hbody⟩ := hread
  have hsettled : SettledFrom false (splitLines doc.body.toList) := by
    rw [hbody]
    decide +kernel
  exact ⟨doc, hdoc, hsettled, (judgesOrder_sectionOrder hdoc).2.2 hsettled⟩

/-- Number signs in front of a heading hide it, and that it should come before another. -/
theorem not_judgesOrder : ¬ ∀ (tree : FileTree) (skill : Skill) (doc : Document),
    skill.document? tree = some doc →
      JudgesOrder skill doc (knownHeadings doc.body) (sectionOrder.check tree skill) := by
  intro h
  have hread : ∃ doc ∈ sectionSkill.document?
      (sectionTree "\n## Constraints\n##\n## Core Workflow\n"),
      knownHeadings doc.body = [(4, "Constraints"), (2, "Core Workflow")] := by
    decide +kernel
  obtain ⟨doc, hdoc, hheadings⟩ := hread
  have hinversion : ¬ (knownHeadings doc.body).Pairwise fun a b => a.1 ≤ b.1 := by
    rw [hheadings]
    decide
  have hsilent : sectionOrder.check (sectionTree "\n## Constraints\n##\n## Core Workflow\n")
      sectionSkill = [] := by
    decide +kernel
  exact hinversion ((h _ sectionSkill doc hdoc).1.mp hsilent)

end SkillLint.Rule
