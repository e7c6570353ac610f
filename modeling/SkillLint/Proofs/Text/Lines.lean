import Mathlib.Data.List.Infix
import SkillLint.Proofs.Text.Cut
import SkillLint.Text.Lines

/-!
# Texts put together from lines

Lines without line feeds are taken apart again after they were joined (`splitLines_joinLines`), and
a phrase without line feeds **occurs in joined lines if and only if it occurs in one of them**
(`infix_joinLines_iff`).  Every text is put together from lines in this way, so what holds of a last
line, and in front of a text for which it holds, holds of all texts (`lines_induction`).

How a text ends can be told from its last lines (`EndsInLines`), and for a number of lines only one
way is possible (`EndsInLines.iff_eq`).

A matcher that needs a phrase at the start of its match passes over everything before a line feed
in which the phrase does not occur (`restAfter?_append_break`).
-/

namespace SkillLint.Text

variable {p s rest : List Char} {lines : List (List Char)}

@[simp] theorem joinLines_singleton (line : List Char) : joinLines [line] = line := by
  simp [joinLines]

theorem joinLines_cons_cons (line next : List Char) (lines : List (List Char)) :
    joinLines (line :: next :: lines) = line ++ '\n' :: joinLines (next :: lines) := by
  simp [joinLines, List.intercalate_cons_cons]

/-- A line feed stands between the last line of the first and the first line of the second. -/
theorem joinLines_append {before after : List (List Char)} (hbefore : before ≠ [])
    (hafter : after ≠ []) :
    joinLines (before ++ after) = joinLines before ++ '\n' :: joinLines after := by
  obtain ⟨next, after, rfl⟩ := List.exists_cons_of_ne_nil hafter
  induction before with
  | nil => exact absurd rfl hbefore
  | cons line rest ih =>
    cases rest with
    | nil => rw [List.singleton_append, joinLines_cons_cons, joinLines_singleton]
    | cons second rest =>
      have hrest := ih (List.cons_ne_nil second rest)
      rw [List.cons_append, List.cons_append, joinLines_cons_cons, ← List.cons_append, hrest,
        joinLines_cons_cons, List.append_assoc, List.cons_append]

/-- Lines that all end with a line feed are joined lines and a line feed. -/
theorem flatMap_terminated (hne : lines ≠ []) :
    lines.flatMap (· ++ ['\n']) = joinLines lines ++ ['\n'] := by
  induction lines with
  | nil => exact absurd rfl hne
  | cons line rest ih =>
    cases rest with
    | nil => simp
    | cons next rest =>
      rw [List.flatMap_cons, ih (List.cons_ne_nil next rest), joinLines_cons_cons]
      simp

/-- Lines are taken apart as they were put together. -/
theorem splitLines_joinLines (hne : lines ≠ []) (h : ∀ line ∈ lines, '\n' ∉ line) :
    splitLines (joinLines lines) = lines :=
  List.splitOn_intercalate '\n' h hne

/-- **A phrase occurs in joined lines** if and only if it occurs in one of them. -/
theorem infix_joinLines_iff (hne : p ≠ []) (hp : '\n' ∉ p) :
    p <:+: joinLines lines ↔ ∃ line ∈ lines, p <:+: line := by
  induction lines with
  | nil => simp [joinLines, hne]
  | cons line lines ih =>
    cases lines with
    | nil => simp
    | cons next lines =>
      rw [joinLines_cons_cons, infix_append_cons_iff hp, ih]
      exact (List.exists_mem_cons_iff _ _ _).symm

/-- Induction over the lines of a text: the last one, and one in front of others. -/
@[elab_as_elim]
theorem lines_induction {motive : List Char → Prop} (last : ∀ s, '\n' ∉ s → motive s)
    (line : ∀ a b, '\n' ∉ a → motive b → motive (a ++ '\n' :: b)) (s : List Char) : motive s := by
  by_cases h : '\n' ∈ s
  · obtain ⟨a, b, hs, ha⟩ := List.eq_append_cons_of_mem h
    have hshorter : b.length < s.length := by
      rw [hs, List.length_append, List.length_cons]
      omega
    exact hs ▸ line a b ha (lines_induction last line b)
  · exact last s h
termination_by s.length

/-- The last lines of the text are these. -/
def EndsInLines (lines : List String) (text : String) : Prop :=
  lines.map String.toList <:+ splitLines text.toList

/-- Lines behind a line feed are the last ones. -/
theorem endsInLines_append {front : String} {lines : List String} (hne : lines ≠ [])
    (h : ∀ line ∈ lines, '\n' ∉ line.toList) :
    EndsInLines lines (front ++ "\n" ++ "\n".intercalate lines) := by
  have htext : (front ++ "\n" ++ "\n".intercalate lines).toList =
      front.toList ++ '\n' :: joinLines (lines.map String.toList) := by
    simp [String.toList_intercalate, joinLines]
  have hpieces : splitLines (joinLines (lines.map String.toList)) = lines.map String.toList :=
    splitLines_joinLines (by simpa using hne) (List.forall_mem_map.mpr h)
  rw [splitLines] at hpieces
  rw [EndsInLines, htext, splitLines, List.splitOn_append_cons_self, hpieces]
  exact List.suffix_append _ _

/-- What ends in lines ends in fewer of them. -/
theorem EndsInLines.of_suffix {lines last : List String} {text : String}
    (h : EndsInLines lines text) (hlast : last <:+ lines) : EndsInLines last text :=
  (hlast.map String.toList).trans h

/-- **A text ends in one way only**, for every number of lines. -/
theorem EndsInLines.iff_eq {lines other : List String} {text : String} (h : EndsInLines lines text)
    (hlength : other.length = lines.length) : EndsInLines other text ↔ other = lines := by
  refine ⟨fun hother => ?_, fun heq => heq ▸ h⟩
  have hmaps : (other.map String.toList).length = (lines.map String.toList).length := by
    rw [List.length_map, List.length_map, hlength]
  have hsuffix := List.suffix_of_suffix_length_le hother h hmaps.le
  exact (List.map_inj_right fun _ _ => String.toList_inj.mp).mp (hsuffix.eq_of_length hmaps)

/-- A start of a text that does not hold a character ends before it. -/
theorem prefix_of_prefix_append_cons {c : Char} (hc : c ∉ p) (h : p <+: s ++ c :: rest) :
    p <+: s := by
  rcases List.prefix_or_prefix_of_prefix h (List.prefix_append s (c :: rest)) with hp | ⟨q, rfl⟩
  · exact hp
  · cases q with
    | nil => simp
    | cons d q =>
      have hbehind := (List.prefix_append_right_inj s).mp h
      obtain ⟨rfl, -⟩ := List.cons_prefix_cons.mp hbehind
      exact absurd (List.mem_append_right s List.mem_cons_self) hc

/-- **What does not hold the phrase is passed over**, up to a line feed, if every match starts with
the phrase. -/
theorem restAfter?_append_break {m : List Char → Option (List Char)}
    (hm : ∀ s r, m s = some r → p <+: s) (hp : '\n' ∉ p) (hs : ¬ p <:+: s) :
    restAfter? m (s ++ '\n' :: rest) = restAfter? m ('\n' :: rest) := by
  induction s with
  | nil => rfl
  | cons c s ih =>
    have hnone : m (c :: (s ++ '\n' :: rest)) = none := by
      rw [Option.eq_none_iff_forall_ne_some]
      intro r hr
      have hstart : p <+: c :: s ++ '\n' :: rest := hm _ r hr
      exact hs (prefix_of_prefix_append_cons hp hstart).isInfix
    rw [List.cons_append, restAfter?, hnone]
    exact ih fun hinfix => hs (List.infix_cons hinfix)

end SkillLint.Text
