import Mathlib.Algebra.GroupWithZero.Nat
import Mathlib.Logic.Relation
import SkillLint.CommandLine.Execute
import SkillLint.FileTree.Build
import SkillLint.Proofs.FileTree.Names
import SkillLint.Proofs.Json.Unambiguous
import SkillLint.Proofs.Text.Lines

/-!
# One verdict in every view

Whether a report is bad news can be read in four places: the flag `hasErrors`, the summary at the
end of the JSON text, the summary and the status at the end of the table, and the exit code of a
run.  All of them go back to the issues of the three sections.

What a text says in its summary is what its last lines are, whatever stands above them, also if a
message above looks like a summary.  So the lines are written down as they have to be for any
numbers (`jsonSummary`, `tableSummary`), and a text ends in them **exactly for the numbers of the
report** (`endsInLines_renderJson_iff`, `endsInLines_renderTable_iff`).

Warnings do not count.  Inserting one (`InsertsWarning`) leaves the number of errors as it is
(`InsertsWarning.totalErrors_eq`), and so does any sequence of insertions and deletions
(`SameButWarnings.hasErrors_eq`).  `Coherent` puts all this together, and **every report is
coherent** (`coherent`).
-/

namespace SkillLint

open Text

/-! ## What a report comes to -/

/-- What a report comes to. -/
inductive Verdict where
  | failed
  | passedWithWarnings
  | passed
  deriving DecidableEq

/-- The line of a table that tells the verdict. -/
def Verdict.line (color : Bool) : Verdict → String
  | failed => "  " ++ Paint.boldRed.apply color "STATUS: FAILED (errors found)"
  | passedWithWarnings => "  " ++ Paint.yellow.apply color "STATUS: PASSED (with warnings)"
  | passed => "  " ++ Paint.boldGreen.apply color "STATUS: PASSED"

theorem Verdict.line_inj {color : Bool} {v w : Verdict} : v.line color = w.line color ↔ v = w := by
  cases color <;> cases v <;> cases w <;> decide

theorem Verdict.lineFeed_notMem_line (color : Bool) (v : Verdict) :
    '\n' ∉ (v.line color).toList := by
  cases color <;> cases v <;> decide

namespace Report

variable {r s : Report}

/-- The number of issues in all sections. -/
def issueCount (r : Report) : Nat :=
  (r.results.map (·.issues.length)).sum + r.countIssues.length + r.workflowIssues.length

/-- One of the sections holds an error. -/
def Blocks (r : Report) : Prop :=
  (∃ result ∈ r.results, result.hasErrors = true) ∨
    (∃ i ∈ r.countIssues, i.severity = .error) ∨ ∃ i ∈ r.workflowIssues, i.severity = .error

/-- The verdict that the issues call for. -/
def Earns (r : Report) : Verdict → Prop
  | .failed => r.Blocks
  | .passedWithWarnings => 0 < r.issueCount ∧ ¬ r.Blocks
  | .passed => r.issueCount = 0

theorem totalErrors_add_totalWarnings (r : Report) :
    r.totalErrors + r.totalWarnings = r.issueCount := by
  have hlength : r.totalErrors + r.totalWarnings = r.allIssues.length := by
    rw [totalErrors, totalWarnings, List.length_eq_countP_add_countP Issue.isError]
    simp
  rw [hlength]
  simp [allIssues, issueCount, List.length_flatMap, Nat.add_assoc]

theorem hasErrors_iff_totalErrors : r.hasErrors = true ↔ 0 < r.totalErrors := by
  rw [hasErrors, totalErrors, List.any_eq_true, List.countP_pos_iff]

theorem hasErrors_iff_blocks : r.hasErrors = true ↔ r.Blocks := by
  simp only [hasErrors, allIssues, List.any_append, List.any_flatMap, Bool.or_eq_true,
    List.any_eq_true, Issue.isError, decide_eq_true_eq, Blocks, SkillResult.hasErrors, or_assoc]

/-- A report without an error has as many warnings as issues. -/
theorem totalWarnings_of_not_blocks (h : ¬ r.Blocks) : r.totalWarnings = r.issueCount := by
  have hnone : r.totalErrors = 0 := by
    by_contra hne
    exact h (hasErrors_iff_blocks.mp (hasErrors_iff_totalErrors.mpr (Nat.pos_of_ne_zero hne)))
  rw [← totalErrors_add_totalWarnings, hnone, Nat.zero_add]

/-- A report without issues does not block. -/
theorem not_blocks_of_issueCount (h : r.issueCount = 0) : ¬ r.Blocks := by
  rw [← hasErrors_iff_blocks, hasErrors_iff_totalErrors]
  have htotal := totalErrors_add_totalWarnings r
  omega

/-- A report earns one verdict only. -/
theorem Earns.unique {v w : Verdict} (hv : r.Earns v) (hw : r.Earns w) : v = w := by
  have hclean : r.issueCount = 0 → ¬ r.Blocks := not_blocks_of_issueCount
  cases v <;> cases w <;> simp only [Earns] at hv hw <;> first | rfl | grind

theorem Earns.eq_iff {v w : Verdict} (hw : r.Earns w) : v = w ↔ r.Earns v :=
  ⟨fun h => h ▸ hw, fun hv => hv.unique hw⟩

/-- The table tells a verdict that the report earns. -/
theorem exists_earned (color : Bool) (r : Report) :
    ∃ verdict, r.Earns verdict ∧ "  " ++ r.status color = verdict.line color := by
  by_cases hblocks : r.Blocks
  · refine ⟨.failed, hblocks, ?_⟩
    rw [status, if_pos (hasErrors_iff_blocks.mpr hblocks), Verdict.line]
  · rw [status, if_neg (mt hasErrors_iff_blocks.mp hblocks), totalWarnings_of_not_blocks hblocks]
    by_cases hissues : 0 < r.issueCount
    · exact ⟨.passedWithWarnings, ⟨hissues, hblocks⟩, by rw [if_pos hissues, Verdict.line]⟩
    · exact ⟨.passed, Nat.eq_zero_of_not_pos hissues, by rw [if_neg hissues, Verdict.line]⟩

/-! ## What a text ends in -/

/-- The last lines of a JSON text. -/
def jsonSummary (skills errors warnings : Nat) (failed : Bool) : List String :=
  ["  \"summary\": \x7b",
    "    \"total_skills\": " ++ toString skills ++ ",",
    "    \"total_errors\": " ++ toString errors ++ ",",
    "    \"total_warnings\": " ++ toString warnings ++ ",",
    "    \"has_errors\": " ++ (if failed then "true" else "false"),
    "  \x7d",
    "\x7d"]

/-- The last lines of a table. -/
def tableSummary (color : Bool) (skills errors warnings : Nat) (verdict : Verdict) : List String :=
  ["  Skills validated: " ++ toString skills,
    "  Total errors:     " ++ toString errors,
    "  Total warnings:   " ++ toString warnings,
    "",
    verdict.line color,
    ""]

theorem truth_inj {a b : Bool} :
    (if a then "true" else "false") = (if b then "true" else "false") ↔ a = b := by
  cases a <;> cases b <;> decide

theorem jsonSummary_inj {k e w k' e' w' : Nat} {failed failed' : Bool} :
    jsonSummary k e w failed = jsonSummary k' e' w' failed' ↔
      k = k' ∧ e = e' ∧ w = w' ∧ failed = failed' := by
  simp only [jsonSummary, List.cons.injEq, String.append_left_inj, String.append_right_inj,
    toString_inj, truth_inj, and_true, true_and]

theorem tableSummary_inj {color : Bool} {k e w k' e' w' : Nat} {verdict verdict' : Verdict} :
    tableSummary color k e w verdict = tableSummary color k' e' w' verdict' ↔
      k = k' ∧ e = e' ∧ w = w' ∧ verdict = verdict' := by
  simp only [tableSummary, List.cons.injEq, String.append_right_inj, toString_inj,
    Verdict.line_inj, and_true, true_and]

/-- A number stands on one line. -/
theorem lineFeed_notMem_toDigits (n : Nat) : '\n' ∉ Nat.toDigits 10 n :=
  fun h => absurd (Nat.isDigit_of_mem_toDigits (by decide) (by decide) h) (by decide)

/-- The JSON text ends in the summary of the report. -/
theorem endsInLines_renderJson (r : Report) :
    EndsInLines (jsonSummary r.results.length r.totalErrors r.totalWarnings r.hasErrors)
      r.renderJson := by
  have hone : ∀ line ∈ jsonSummary r.results.length r.totalErrors r.totalWarnings r.hasErrors,
      '\n' ∉ line.toList := by
    cases r.hasErrors <;> simp [jsonSummary, lineFeed_notMem_toDigits]
  have hkeys : ["summary", "total_skills", "total_errors", "total_warnings", "has_errors"].map
      Json.quote = ["\"summary\"", "\"total_skills\"", "\"total_errors\"", "\"total_warnings\"",
        "\"has_errors\""] := by
    decide
  simp only [List.map_cons, List.map_nil, List.cons.injEq, and_true] at hkeys
  obtain ⟨hsummary, hskills, herrors, hwarnings, hflag⟩ := hkeys
  have hsections : r.renderJson = "\x7b\n" ++ ",\n".intercalate
      ([("results", Json.arr (r.results.map SkillResult.toJson)),
          ("count_issues", Issue.listToJson r.countIssues),
          ("workflow_issues", Issue.listToJson r.workflowIssues)].map fun field =>
        Json.indentation 1 ++ Json.prettyField 1 field) ++ "," ++ "\n" ++ "\n".intercalate
      (jsonSummary r.results.length r.totalErrors r.totalWarnings r.hasErrors) := by
    rw [← String.toList_inj]
    simp [renderJson, toJson, summaryJson, Json.pretty, Json.prettyAt, Json.prettyFields,
      Json.prettyField, Json.enclose, Json.indentation, jsonSummary, String.intercalate_cons_cons,
      hsummary, hskills, herrors, hwarnings, hflag]
  rw [hsections]
  exact endsInLines_append (List.cons_ne_nil _ _) hone

/-- **The JSON text ends in a summary** exactly if that is the one of the report. -/
theorem endsInLines_renderJson_iff {skills errors warnings : Nat} {failed : Bool} :
    EndsInLines (jsonSummary skills errors warnings failed) r.renderJson ↔
      skills = r.results.length ∧ errors = r.totalErrors ∧ warnings = r.totalWarnings ∧
        failed = r.hasErrors := by
  have hlength : (jsonSummary skills errors warnings failed).length =
      (jsonSummary r.results.length r.totalErrors r.totalWarnings r.hasErrors).length := rfl
  exact ((endsInLines_renderJson r).iff_eq hlength).trans jsonSummary_inj

/-- The table ends in the summary of the report. -/
theorem endsInLines_renderTable {color : Bool} {verdict : Verdict}
    (hstatus : "  " ++ r.status color = verdict.line color) :
    EndsInLines (tableSummary color r.results.length r.totalErrors r.totalWarnings verdict)
      (r.renderTable color) := by
  have hone : ∀ line ∈ tableSummary color r.results.length r.totalErrors r.totalWarnings verdict,
      '\n' ∉ line.toList := by
    simp [tableSummary, lineFeed_notMem_toDigits, Verdict.lineFeed_notMem_line]
  rw [renderTable, summaryLines, hstatus, ← List.append_assoc,
    String.intercalate_append_of_ne_nil (by simp [banner]) (by simp)]
  exact endsInLines_append (List.cons_ne_nil _ _) hone

/-- **The table ends in a summary** exactly if it has the numbers of the report and a verdict that
the report earns. -/
theorem endsInLines_renderTable_iff {color : Bool} {skills errors warnings : Nat}
    {verdict : Verdict} :
    EndsInLines (tableSummary color skills errors warnings verdict) (r.renderTable color) ↔
      skills = r.results.length ∧ errors = r.totalErrors ∧ warnings = r.totalWarnings ∧
        r.Earns verdict := by
  obtain ⟨earned, hearned, hstatus⟩ := exists_earned color r
  have hlength : (tableSummary color skills errors warnings verdict).length =
      (tableSummary color r.results.length r.totalErrors r.totalWarnings earned).length := rfl
  rw [← hearned.eq_iff]
  exact ((endsInLines_renderTable hstatus).iff_eq hlength).trans tableSummary_inj

/-- **The table ends in a verdict** exactly if the report earns it. -/
theorem endsInLines_status_iff {color : Bool} {verdict : Verdict} :
    EndsInLines [verdict.line color, ""] (r.renderTable color) ↔ r.Earns verdict := by
  obtain ⟨earned, hearned, hstatus⟩ := exists_earned color r
  have hlast : EndsInLines [earned.line color, ""] (r.renderTable color) :=
    (endsInLines_renderTable hstatus).of_suffix (List.drop_suffix 4 (tableSummary ..))
  have hlength : [verdict.line color, ""].length = [earned.line color, ""].length := rfl
  rw [hlast.iff_eq hlength, List.cons.injEq, Verdict.line_inj, and_iff_left rfl, hearned.eq_iff]

end Report

/-! ## Warnings -/

/-- The second list has one warning more. -/
inductive AddsWarning : List Issue → List Issue → Prop where
  | mk {before after : List Issue} {w : Issue} (hw : w.severity = .warning) :
    AddsWarning (before ++ after) (before ++ w :: after)

theorem AddsWarning.append {is js : List Issue} (h : AddsWarning is js)
    (before after : List Issue) : AddsWarning (before ++ is ++ after) (before ++ js ++ after) := by
  obtain @⟨first, last, w, hw⟩ := h
  have hstep : AddsWarning ((before ++ first) ++ (last ++ after))
      ((before ++ first) ++ w :: (last ++ after)) := .mk hw
  simpa using hstep

theorem AddsWarning.countP_isError {is js : List Issue} (h : AddsWarning is js) :
    is.countP (·.isError) = js.countP (·.isError) := by
  obtain ⟨hw⟩ := h
  simp [List.countP_append, Issue.isError, hw]

namespace Report

variable {r s : Report}

/-- The second report has one warning more, in any of the sections. -/
inductive InsertsWarning : Report → Report → Prop where
  | inSkill {before after : List SkillResult} {skill : String} {is js counts workflow : List Issue}
    (h : AddsWarning is js) :
    InsertsWarning ⟨before ++ ⟨skill, is⟩ :: after, counts, workflow⟩
      ⟨before ++ ⟨skill, js⟩ :: after, counts, workflow⟩
  | inCounts {results : List SkillResult} {is js workflow : List Issue} (h : AddsWarning is js) :
    InsertsWarning ⟨results, is, workflow⟩ ⟨results, js, workflow⟩
  | inWorkflow {results : List SkillResult} {is js counts : List Issue} (h : AddsWarning is js) :
    InsertsWarning ⟨results, counts, is⟩ ⟨results, counts, js⟩

/-- The reports differ by warnings that were inserted or deleted, any number of them and
anywhere. -/
def SameButWarnings : Report → Report → Prop := Relation.EqvGen InsertsWarning

/-- A warning that is inserted is one more among all issues. -/
theorem InsertsWarning.allIssues (h : InsertsWarning r s) :
    AddsWarning r.allIssues s.allIssues := by
  cases h with
  | @inSkill before after skill is js counts workflow h =>
    have hall := h.append (before.flatMap (·.issues))
      (after.flatMap (·.issues) ++ counts ++ workflow)
    simpa [Report.allIssues] using hall
  | @inCounts results is js workflow h =>
    exact h.append (results.flatMap (·.issues)) workflow
  | @inWorkflow results is js counts h =>
    have hall := h.append (results.flatMap (·.issues) ++ counts) []
    simpa [Report.allIssues] using hall

/-- **Inserting a warning** leaves the number of errors as it is. -/
theorem InsertsWarning.totalErrors_eq (h : InsertsWarning r s) : r.totalErrors = s.totalErrors :=
  h.allIssues.countP_isError

/-- **Warnings do not change whether there are errors**, however many are inserted or deleted. -/
theorem SameButWarnings.hasErrors_eq (h : SameButWarnings r s) : r.hasErrors = s.hasErrors := by
  have htotal : r.totalErrors = s.totalErrors := by
    induction h with
    | rel _ _ hstep => exact hstep.totalErrors_eq
    | refl => rfl
    | symm _ _ _ ih => exact ih.symm
    | trans _ _ _ _ _ ih ih' => exact ih.trans ih'
  rw [Bool.eq_iff_iff, hasErrors_iff_totalErrors, hasErrors_iff_totalErrors, htotal]

end Report

/-! ## All views -/

namespace CommandLine

variable {tree : FileTree} {env : Environment} {config : Option Path} {options : ValidateOptions}
  {r : Report}

/-- The exit code of a run with a report. -/
theorem exitCode_execute (h : options.report tree env config = .ok r) :
    ((Request.validate config options).execute tree env).exitCode =
      if r.hasErrors then 1 else 0 := by
  simp only [Request.execute, h]
  rfl

end CommandLine

namespace Report

open CommandLine

variable {r s : Report} {outcome outcome' : Outcome}

/-- A run that found the report, in some tree with some options, has the outcome. -/
def LeadsTo (r : Report) (outcome : Outcome) : Prop :=
  ∃ tree env config, ∃ options : ValidateOptions, options.report tree env config = .ok r ∧
    (Request.validate config options).execute tree env = outcome

theorem LeadsTo.exitCode_eq (h : r.LeadsTo outcome) :
    outcome.exitCode = if r.hasErrors then 1 else 0 := by
  obtain ⟨tree, env, config, options, hreport, rfl⟩ := h
  exact exitCode_execute hreport

/-- **A run fails** exactly if its report has errors. -/
theorem LeadsTo.exitCode_eq_one_iff (h : r.LeadsTo outcome) :
    outcome.exitCode = 1 ↔ r.hasErrors = true := by
  rw [h.exitCode_eq]
  cases r.hasErrors <;> decide

/-- **Warnings do not change the exit code**, whatever runs the two reports come from. -/
theorem SameButWarnings.exitCode_eq (h : SameButWarnings r s) (hr : r.LeadsTo outcome)
    (hs : s.LeadsTo outcome') : outcome.exitCode = outcome'.exitCode := by
  rw [hr.exitCode_eq, hs.exitCode_eq, h.hasErrors_eq]

/-- All views of the report give one verdict. -/
structure Coherent (r : Report) : Prop where
  /-- Every issue is counted once. -/
  totals : r.totalErrors + r.totalWarnings = r.issueCount
  errors : r.hasErrors = true ↔ 0 < r.totalErrors
  blocks : r.hasErrors = true ↔ r.Blocks
  /-- The JSON text ends in the numbers of the report and in no others. -/
  json : ∀ skills errors warnings failed,
    EndsInLines (jsonSummary skills errors warnings failed) r.renderJson ↔
      skills = r.results.length ∧ errors = r.totalErrors ∧ warnings = r.totalWarnings ∧
        failed = r.hasErrors
  /-- So does the table, with colour or without. -/
  table : ∀ color skills errors warnings verdict,
    EndsInLines (tableSummary color skills errors warnings verdict) (r.renderTable color) ↔
      skills = r.results.length ∧ errors = r.totalErrors ∧ warnings = r.totalWarnings ∧
        r.Earns verdict
  /-- What the table says at its end is the verdict that the issues call for. -/
  status : ∀ color verdict,
    EndsInLines [verdict.line color, ""] (r.renderTable color) ↔ r.Earns verdict
  exitCode : ∀ outcome, r.LeadsTo outcome → (outcome.exitCode = 1 ↔ r.hasErrors = true)
  /-- Warnings inserted and deleted anywhere change neither the flag nor the exit code. -/
  warnings : ∀ s, SameButWarnings r s → s.hasErrors = r.hasErrors ∧
    ∀ outcome outcome', r.LeadsTo outcome → s.LeadsTo outcome' →
      outcome'.exitCode = outcome.exitCode

/-- **Every report is coherent.** -/
theorem coherent (r : Report) : r.Coherent where
  totals := totalErrors_add_totalWarnings r
  errors := hasErrors_iff_totalErrors
  blocks := hasErrors_iff_blocks
  json _ _ _ _ := endsInLines_renderJson_iff
  table _ _ _ _ _ := endsInLines_renderTable_iff
  status _ _ := endsInLines_status_iff
  exitCode _ h := h.exitCode_eq_one_iff
  warnings _ h := ⟨h.hasErrors_eq.symm, fun _ _ hr hs => (h.exitCode_eq hr hs).symm⟩

/-- A project with one skill, whose document has no header. -/
def headlessTree : FileTree :=
  (FileTree.empty []).writeFile ⟨"skills/sorting/SKILL.md"⟩ "A text.".toUTF8

/-- The run on this project fails, as its report says. -/
theorem coherent_headlessTree : ∃ (r : Report) (outcome : Outcome), r.LeadsTo outcome ∧
    r.Coherent ∧ r.Earns .failed ∧ outcome.exitCode = 1 := by
  have hfound : ((ValidateOptions.mk none none none none none none).report headlessTree [] none).map
      (·.hasErrors) = .ok true := by
    decide +kernel
  obtain ⟨r, hreport, herrors⟩ := map_eq_ok_iff.mp hfound
  have hleads : LeadsTo r _ := ⟨_, _, _, _, hreport, rfl⟩
  have hcoherent := coherent r
  exact ⟨r, _, hleads, hcoherent, hcoherent.blocks.mp herrors,
    (hcoherent.exitCode _ hleads).mpr herrors⟩

end Report

end SkillLint
