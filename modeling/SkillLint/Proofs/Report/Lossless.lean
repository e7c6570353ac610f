import Mathlib.Logic.Function.Basic
import SkillLint.Proofs.Json.Unambiguous
import SkillLint.Report.View

/-!
# The JSON form of a report loses nothing

Every part of a report has a place of its own in its JSON value: a string for each text, a list for
each list, and null for an issue without file, which is no string.  So the value determines the
report (`toJson_inj`), and the text determines the value.  **Two reports with the same text are the
same report** (`renderJson_lossless`).
-/

namespace SkillLint

/-- The word for a severity is that of no other. -/
theorem Severity.text_inj {s t : Severity} : s.text = t.text ↔ s = t := by
  cases s <;> cases t <;> decide

/-- A missing file is not taken for a file. -/
theorem fileJson_inj {a b : Option String} :
    (a.map Json.str).getD .null = (b.map Json.str).getD .null ↔ a = b := by
  cases a <;> cases b <;> simp

theorem Issue.toJson_inj {i j : Issue} : i.toJson = j.toJson ↔ i = j := by
  cases i
  cases j
  simp [Issue.toJson, Severity.text_inj, fileJson_inj]

theorem Issue.listToJson_inj {is js : List Issue} :
    Issue.listToJson is = Issue.listToJson js ↔ is = js := by
  rw [Issue.listToJson, Issue.listToJson, Json.arr.injEq]
  exact List.map_inj_right fun _ _ => Issue.toJson_inj.mp

/-- The flags of a skill follow from its issues. -/
theorem SkillResult.toJson_inj {r s : SkillResult} : r.toJson = s.toJson ↔ r = s := by
  refine ⟨fun h => ?_, congrArg SkillResult.toJson⟩
  cases r
  cases s
  simp only [SkillResult.toJson, Json.obj.injEq, List.cons.injEq, Prod.mk.injEq, Json.str.injEq,
    Issue.listToJson_inj, true_and] at h
  rw [h.1, h.2.1]

namespace Report

/-- The summary follows from the sections. -/
theorem toJson_inj {r s : Report} : r.toJson = s.toJson ↔ r = s := by
  refine ⟨fun h => ?_, congrArg toJson⟩
  have hresults : ∀ {rs ss : List SkillResult},
      rs.map SkillResult.toJson = ss.map SkillResult.toJson ↔ rs = ss :=
    List.map_inj_right fun _ _ => SkillResult.toJson_inj.mp
  cases r
  cases s
  simp only [toJson, Json.obj.injEq, List.cons.injEq, Prod.mk.injEq, Json.arr.injEq,
    Issue.listToJson_inj, hresults, true_and] at h
  rw [h.1, h.2.1, h.2.2.1]

/-- **The JSON text of a report loses nothing**: it is that of no other report, so the report can
be recovered from it. -/
theorem renderJson_lossless :
    (∀ r s : Report, r.renderJson = s.renderJson ↔ r = s) ∧
      ∃ read : String → Option Report, ∀ r : Report, read r.renderJson = some r := by
  have hinj : ∀ r s : Report, r.renderJson = s.renderJson ↔ r = s :=
    fun r s => Json.pretty_inj.trans toJson_inj
  exact ⟨hinj, Function.partialInv renderJson,
    Function.partialInv_left fun r s => (hinj r s).mp⟩

end Report

end SkillLint
