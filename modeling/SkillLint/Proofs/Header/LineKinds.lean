import SkillLint.Header.Restricted
import SkillLint.Proofs.Text.Cut
import SkillLint.Proofs.Text.Trim

/-!
# What a line of a header is

Three kinds of lines mean something in a header: items, entries and keys (`IsItemLine`,
`IsEntryLine`, `IsKeyLine`).  They are told apart by how a line starts and whether there is a colon
in it.  What a line says are the trimmed texts before and behind its first colon (`keyText`,
`valueText`), or the text of the item.

**The parser classifies lines in this way** (`classify_eq`).  It trims a whole line before it cuts
an entry, and trims the parts again; the blanks around the line make no difference to them
(`splitPair_trim`).
-/

namespace SkillLint.Header.Restricted

open SkillLint.Text

variable {line before after : List Char}

/-! ## Kinds of lines -/

/-- An item starts with two or four spaces, a hyphen and a space. -/
def IsItemLine (line : List Char) : Prop := "  - ".toList <+: line ∨ "    - ".toList <+: line

/-- An entry is another line that starts with two spaces and has a colon. -/
def IsEntryLine (line : List Char) : Prop :=
  ¬ IsItemLine line ∧ "  ".toList <+: line ∧ ':' ∈ line

/-- A key has a colon, and starts without a space. -/
def IsKeyLine (line : List Char) : Prop := ':' ∈ line ∧ ¬ " ".toList <+: line

instance : Decidable (IsItemLine line) := inferInstanceAs (Decidable (_ ∨ _))

instance : Decidable (IsEntryLine line) := inferInstanceAs (Decidable (_ ∧ _))

instance : Decidable (IsKeyLine line) := inferInstanceAs (Decidable (_ ∧ _))

theorem IsKeyLine.not_item (h : IsKeyLine line) : ¬ IsItemLine line := by
  rintro (hitem | hitem)
  · exact h.2 ((by decide : " ".toList <+: "  - ".toList).trans hitem)
  · exact h.2 ((by decide : " ".toList <+: "    - ".toList).trans hitem)

theorem IsKeyLine.not_entry (h : IsKeyLine line) : ¬ IsEntryLine line := fun hentry =>
  h.2 ((by decide : " ".toList <+: "  ".toList).trans hentry.2.1)

/-- The trimmed text before the first colon. -/
def keyText (line : List Char) : List Char := trim (line.takeWhile (· ≠ ':'))

/-- The trimmed text behind the first colon. -/
def valueText (line : List Char) : List Char := trim ((line.dropWhile (· ≠ ':')).drop 1)

/-! ## Cutting at the first colon -/

theorem ne_colon_of_notMem (h : ':' ∉ before) : ∀ c ∈ before, decide (c ≠ ':') = true :=
  fun c hc => decide_eq_true fun he : c = ':' => h (he ▸ hc)

theorem keyText_append (h : ':' ∉ before) : keyText (before ++ ':' :: after) = trim before := by
  rw [keyText, List.takeWhile_append_of_pos (ne_colon_of_notMem h),
    List.takeWhile_cons_of_neg (by simp), List.append_nil]

theorem valueText_append (h : ':' ∉ before) : valueText (before ++ ':' :: after) = trim after := by
  rw [valueText, List.dropWhile_append_of_pos (ne_colon_of_notMem h),
    List.dropWhile_cons_of_neg (by simp), List.drop_one, List.tail_cons]

/-- A line with a colon is cut at the first one. -/
theorem splitPair_eq (h : ':' ∈ line) : splitPair line = (keyText line, valueText line) := by
  obtain ⟨before, after, rfl, hbefore⟩ := List.eq_append_cons_of_mem h
  have hcut : cutAt? [':'] (before ++ ':' :: after) = some (before, after) := by
    rw [cutAt?_eq_some_iff (List.cons_ne_nil _ _)]
    refine ⟨by simp, fun hinfix => hbefore ?_⟩
    have hmem := hinfix.subset List.mem_cons_self
    simpa using hmem
  rw [splitPair, hcut, keyText_append hbefore, valueText_append hbefore]

/-- Blanks around a line do not matter to what stands before and behind its first colon. -/
theorem splitPair_trim (h : ':' ∈ line) :
    splitPair (trim line) = (keyText line, valueText line) := by
  obtain ⟨b, a, hb, ha, hline⟩ := exists_around_trim line
  have hcolon : ':' ∈ trim line := by
    rw [hline, List.mem_append, List.mem_append] at h
    rcases h with (h | h) | h
    · exact absurd h (notMem_of_isAllBlank (by decide) hb)
    · exact h
    · exact absurd h (notMem_of_isAllBlank (by decide) ha)
  obtain ⟨before, after, htrim, hbefore⟩ := List.eq_append_cons_of_mem hcolon
  have hsplit : line = (b ++ before) ++ ':' :: (after ++ a) := by
    rw [hline, htrim]
    simp
  have hb' : ':' ∉ b ++ before := by
    rw [List.mem_append, not_or]
    exact ⟨notMem_of_isAllBlank (by decide) hb, hbefore⟩
  have hkey : keyText line = trim before := by
    have hblank := trim_append_blank (s := before) hb (a := []) rfl
    rw [List.append_nil] at hblank
    rw [hsplit, keyText_append hb', hblank]
  have hvalue : valueText line = trim after := by
    rw [hsplit, valueText_append hb']
    exact trim_append_blank (b := []) rfl ha
  rw [splitPair_eq hcolon, hkey, hvalue, htrim, keyText_append hbefore, valueText_append hbefore]

/-! ## Classification -/

/-- Items and lines with a colon are not blank. -/
theorem not_isAllBlank_of_kind (h : IsItemLine line ∨ ':' ∈ line) : isAllBlank line = false := by
  rcases h with (h | h) | h
  · exact not_isAllBlank_of_mem (c := '-') (h.subset (by decide)) (by decide)
  · exact not_isAllBlank_of_mem (c := '-') (h.subset (by decide)) (by decide)
  · exact not_isAllBlank_of_mem h (by decide)

/-- The tests of the parser, in their order. -/
theorem classify_eq_ite (line : List Char) : Line.classify line =
    if isAllBlank line = true then .other
    else if IsItemLine line then .item (itemText line)
    else if "  ".toList <+: line ∧ ':' ∈ line then
      .entry (splitPair (trim line)).1 (splitPair (trim line)).2
    else if ':' ∈ line ∧ ¬ " ".toList <+: line then .key (splitPair line).1 (splitPair line).2
    else .other := by
  simp only [Line.classify, IsItemLine, ← startsWith_eq_true_iff, Bool.or_eq_true,
    Bool.and_eq_true, List.contains_iff_mem, Bool.not_eq_true', Bool.not_eq_true]

/-- **The parser tells lines apart by their kinds.** -/
theorem classify_eq (line : List Char) : Line.classify line =
    if IsItemLine line then .item (itemText line)
    else if IsEntryLine line then .entry (keyText line) (valueText line)
    else if IsKeyLine line then .key (keyText line) (valueText line)
    else .other := by
  rw [classify_eq_ite]
  by_cases hitem : IsItemLine line
  · rw [not_isAllBlank_of_kind (.inl hitem)]
    simp [hitem]
  by_cases hcolon : ':' ∈ line
  · rw [not_isAllBlank_of_kind (.inr hcolon), splitPair_trim hcolon, splitPair_eq hcolon]
    simp [IsEntryLine, IsKeyLine, hitem, hcolon]
  · -- without a colon a line is an item or nothing
    simp [IsEntryLine, IsKeyLine, hitem, hcolon]

/-- A blank line means nothing. -/
theorem classify_of_isAllBlank (h : isAllBlank line = true) : Line.classify line = .other := by
  rw [classify_eq_ite, if_pos h]

end SkillLint.Header.Restricted
