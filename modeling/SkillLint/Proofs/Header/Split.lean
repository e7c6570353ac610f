import Mathlib.Tactic.Tauto
import SkillLint.Header.Document
import SkillLint.Proofs.Text.Cut
import SkillLint.Text.Lines

/-!
# Where a header ends

`split` gives one of three answers, and **each of them is an equation for the text**
(`split_exact`): a text with two delimiters is the first delimiter, the header, the next
delimiter and the body, so that no character is lost and the body keeps all later
delimiters; the two errors say which delimiter is not there.  The second delimiter is the
first one that starts behind the first.  In a run of hyphens occurrences overlap, so the
header is asked not to hold one even together with the hyphens that follow it.

`fenced` puts a header and a body together, with the delimiter on lines of its own.  One
would expect `split` to take them apart again as long as no line of the header is itself a
delimiter.  But `split` looks for the three hyphens anywhere, and takes the first ones that
it finds (`split_eq_ok_iff`).  **So the parts come back if and only if the header does not
hold three hyphens at all** (`split_fenced_eq_ok_iff`): a value such as `a---b` ends the
header, and the rest of its line, and the fields below it, become part of the body
(`split_fenced_of_first`, `not_split_fenced_of_lines`).
-/

namespace SkillLint.Header

open SkillLint.Text

/-- A document with a header and a body, each delimiter on a line of its own. -/
def fenced (header body : String) : String := "---\n" ++ header ++ "\n---\n" ++ body

/-- What `split` gives for a document whose header ends where it should. -/
def fencedParts (header body : String) : Parts := ⟨"\n" ++ header ++ "\n", "\n" ++ body⟩

/-- `split` cuts at the first delimiter after the one at the start. -/
theorem split_eq_ok_iff {content header body : String} :
    split content = .ok ⟨header, body⟩ ↔
      content = delimiter ++ header ++ delimiter ++ body ∧
        ¬ delimiter.toList <:+: header.toList ++ delimiter.toList.dropLast := by
  have hdelimiter : delimiter.toList ≠ [] := by decide
  have hcontent : content = delimiter ++ header ++ delimiter ++ body ↔
      content.toList = delimiter.toList ++ (header.toList ++ delimiter.toList ++ body.toList) := by
    rw [← String.toList_inj]
    simp
  rw [hcontent, split]
  cases hdrop : dropPrefix? delimiter.toList content.toList with
  | none =>
    have hstart := dropPrefix?_eq_none_iff.mp hdrop
    refine ⟨fun h => (nomatch h), ?_⟩
    rintro ⟨hrest, -⟩
    exact absurd ⟨_, hrest.symm⟩ hstart
  | some rest =>
    have hrest := dropPrefix?_eq_some_iff.mp hdrop
    rw [hrest, List.append_cancel_left_eq, ← cutAt?_eq_some_iff hdelimiter]
    dsimp only
    cases cutAt? delimiter.toList rest with
    | none => simp
    | some cut =>
      obtain ⟨before, after⟩ := cut
      simp [← String.toList_inj]

/-- Without a delimiter at the very start there is no header to begin. -/
theorem split_eq_noOpeningDelimiter_iff {content : String} :
    split content = .error .noOpeningDelimiter ↔ ¬ delimiter.toList <+: content.toList := by
  rw [split, ← dropPrefix?_eq_none_iff]
  cases dropPrefix? delimiter.toList content.toList with
  | none => simp
  | some rest =>
    dsimp only
    cases cutAt? delimiter.toList rest <;> simp

/-- Without a delimiter behind the first one the header does not end. -/
theorem split_eq_noClosingDelimiter_iff {content : String} :
    split content = .error .noClosingDelimiter ↔
      ∃ rest, content = delimiter ++ rest ∧ ¬ delimiter.toList <:+: rest.toList := by
  have hcontent : ∀ rest : String, content = delimiter ++ rest ↔
      dropPrefix? delimiter.toList content.toList = some rest.toList := by
    intro rest
    rw [dropPrefix?_eq_some_iff, ← String.toList_append, String.toList_inj]
  simp only [hcontent, split]
  cases hdrop : dropPrefix? delimiter.toList content.toList with
  | none => simp
  | some rest =>
    have hrest : (∃ r : String, some rest = some r.toList ∧ ¬ delimiter.toList <:+: r.toList) ↔
        cutAt? delimiter.toList rest = none := by
      rw [cutAt?_eq_none_iff]
      constructor
      · rintro ⟨r, hr, hnone⟩
        rwa [Option.some.inj hr]
      · intro hnone
        exact ⟨String.ofList rest, by rw [String.toList_ofList], by rwa [String.toList_ofList]⟩
    rw [hrest]
    dsimp only
    cases cutAt? delimiter.toList rest <;> simp

/-- **Cutting a document is exact.**  The parts put together are the document, and the closing
delimiter is the first one behind the opening one; there is no cut if and only if one of the two
is not there. -/
theorem split_exact (content : String) :
    (∀ header body, split content = .ok ⟨header, body⟩ ↔
      content = "---" ++ header ++ "---" ++ body ∧
        ¬ "---".toList <:+: (header ++ "--").toList) ∧
    (split content = .error .noOpeningDelimiter ↔ ¬ "---".toList <+: content.toList) ∧
    (split content = .error .noClosingDelimiter ↔
      ∃ rest, content = "---" ++ rest ∧ ¬ "---".toList <:+: rest.toList) := by
  refine ⟨fun header body => ?_, split_eq_noOpeningDelimiter_iff,
    split_eq_noClosingDelimiter_iff⟩
  have hbefore : (header ++ "--").toList = header.toList ++ delimiter.toList.dropLast :=
    String.toList_append
  rw [hbefore]
  exact split_eq_ok_iff

/-- Between the delimiters of a document there are three hyphens only if they are in the
header. -/
theorem delimiter_infix_fenced_iff (header : String) :
    delimiter.toList <:+: ("\n" ++ header ++ "\n").toList ++ delimiter.toList.dropLast ↔
      delimiter.toList <:+: header.toList := by
  have hlines : ("\n" ++ header ++ "\n").toList ++ delimiter.toList.dropLast =
      [] ++ '\n' :: (header.toList ++ '\n' :: delimiter.toList.dropLast) := by simp
  -- no occurrence reaches across a line feed, so the lines are searched one by one
  have hbreak : '\n' ∉ delimiter.toList := by decide
  have hbefore : ¬ delimiter.toList <:+: [] := by decide
  have hafter : ¬ delimiter.toList <:+: delimiter.toList.dropLast :=
    not_infix_dropLast (by decide)
  rw [hlines, infix_append_cons_iff hbreak, infix_append_cons_iff hbreak]
  tauto

/-- **A header and a body come back from their document if and only if the header does not
hold three hyphens.** -/
theorem split_fenced_eq_ok_iff (header body : String) :
    split (fenced header body) = .ok (fencedParts header body) ↔
      ¬ delimiter.toList <:+: header.toList := by
  have hcontent : fenced header body =
      delimiter ++ ("\n" ++ header ++ "\n") ++ delimiter ++ ("\n" ++ body) := by
    rw [← String.toList_inj]
    simp [fenced, delimiter]
  rw [fencedParts, split_eq_ok_iff, delimiter_infix_fenced_iff]
  exact and_iff_right hcontent

/-- **Three hyphens in a header end it.**  What follows them is body. -/
theorem split_fenced_of_first (before after body : String)
    (hfirst : ¬ delimiter.toList <:+: before.toList ++ delimiter.toList.dropLast) :
    split (fenced (before ++ delimiter ++ after) body) =
      .ok ⟨"\n" ++ before, after ++ "\n---\n" ++ body⟩ := by
  rw [split_eq_ok_iff]
  have hline : ("\n" ++ before).toList ++ delimiter.toList.dropLast =
      [] ++ '\n' :: (before.toList ++ delimiter.toList.dropLast) := by simp
  refine ⟨?_, ?_⟩
  · rw [← String.toList_inj]
    simp [fenced, delimiter]
  · rw [hline, infix_append_cons_iff (by decide)]
    rintro (h | h)
    · exact absurd h (by decide)
    · exact hfirst h

/-- That no line of a header is a delimiter is not enough for it to come back. -/
theorem not_split_fenced_of_lines : ¬ ∀ header body : String,
    delimiter.toList ∉ splitLines header.toList →
      split (fenced header body) = .ok (fencedParts header body) := by
  intro h
  have hwhole := h ("name: a" ++ delimiter ++ "b") "body" (by decide)
  have hcut := split_fenced_of_first "name: a" "b" "body" (by decide +kernel)
  rw [hcut] at hwhole
  exact absurd (Except.ok.inj hwhole) (by decide +kernel)

end SkillLint.Header
