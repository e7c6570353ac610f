import Mathlib.Data.List.TakeWhile
import SkillLint.Text.Blank
import SkillLint.Text.Lines

/-!
# Trimmed texts

A text is `Trimmed` when neither end of it is blank.  **Trimming takes away the blanks around
a trimmed text, and no more** (`trim_around`): whatever stands between its ends, blanks too,
stays as it is.  Of a text that need not be trimmed, blanks put around it do not change what
trimming leaves (`trim_append_blank`).

At the end of a text of several lines only the last line is trimmed, as long as it is not
blank (`trimRight_append`), and `splitLines` takes lines apart that were put together one by
one (`splitLines_terminated`).

A gap is found whole: a matcher of blanks goes on to where something stands that is not blank
(`dropWhile_gap`, `dropBlanks?_gap`).
-/

namespace SkillLint.Text

/-- Neither end of the text is blank. -/
def Trimmed (s : List Char) : Prop :=
  (∀ c ∈ s.head?, isBlank c = false) ∧ ∀ c ∈ s.getLast?, isBlank c = false

instance (s : List Char) : Decidable (Trimmed s) :=
  decidable_of_iff ((s.head?.all fun c => !isBlank c) = true ∧
    (s.getLast?.all fun c => !isBlank c) = true) (by simp [Trimmed, Option.all_eq_true])

variable {s t b a : List Char}

theorem trimmed_nil : Trimmed [] := by
  refine ⟨?_, ?_⟩
  all_goals
    intro c h
    cases h

theorem trimmed_singleton {c : Char} (h : isBlank c = false) : Trimmed [c] := by
  refine ⟨?_, ?_⟩
  all_goals
    rintro d ⟨⟩
    exact h

theorem not_isAllBlank_of_mem {c : Char} (hc : c ∈ s) (hblank : isBlank c = false) :
    isAllBlank s = false := by
  rw [isAllBlank, List.all_eq_false]
  exact ⟨c, hc, by rw [hblank]; exact Bool.false_ne_true⟩

theorem notMem_of_isAllBlank {c : Char} (hc : isBlank c = false) (hs : isAllBlank s = true) :
    c ∉ s := by
  intro hmem
  rw [not_isAllBlank_of_mem hmem hc] at hs
  cases hs

theorem isAllBlank_cons (c : Char) (s : List Char) :
    isAllBlank (c :: s) = (isBlank c && isAllBlank s) := List.all_cons

theorem isAllBlank_append (s t : List Char) :
    isAllBlank (s ++ t) = (isAllBlank s && isAllBlank t) := List.all_append

/-- Only the outer ends of two trimmed texts matter; what stands between them may be
blank. -/
theorem Trimmed.append (hs : Trimmed s) (ht : Trimmed t) (hsne : s ≠ []) (htne : t ≠ []) :
    Trimmed (s ++ a ++ t) := by
  obtain ⟨c, s, rfl⟩ := List.exists_cons_of_ne_nil hsne
  refine ⟨hs.1, ?_⟩
  rw [List.getLast?_append, List.getLast?_eq_some_getLast htne]
  intro d hd
  exact ht.2 d (List.getLast?_eq_some_getLast htne ▸ hd)

theorem trimLeft_eq_self (h : ∀ c ∈ s.head?, isBlank c = false) : trimLeft s = s := by
  cases s with
  | nil => rfl
  | cons c s => exact List.dropWhile_cons_of_neg (by rw [h c rfl]; exact Bool.false_ne_true)

theorem trimRight_eq_self (h : ∀ c ∈ s.getLast?, isBlank c = false) : trimRight s = s := by
  have hreverse : trimLeft s.reverse = s.reverse := trimLeft_eq_self (by simpa using h)
  rw [trimRight]
  exact (congrArg List.reverse hreverse).trans s.reverse_reverse

theorem trimLeft_append_left (hb : isAllBlank b = true) : trimLeft (b ++ s) = trimLeft s :=
  List.dropWhile_append_of_pos (List.all_eq_true.mp hb)

theorem trimRight_append_right (ha : isAllBlank a = true) : trimRight (s ++ a) = trimRight s := by
  have hreverse : ∀ c ∈ a.reverse, isBlank c = true := fun c hc =>
    List.all_eq_true.mp ha c (List.mem_reverse.mp hc)
  rw [trimRight, List.reverse_append, List.dropWhile_append_of_pos hreverse, trimRight]

theorem trimLeft_eq_nil (h : isAllBlank s = true) : trimLeft s = [] :=
  List.dropWhile_eq_nil_iff.mpr (List.all_eq_true.mp h)

theorem trim_of_isAllBlank (h : isAllBlank s = true) : trim s = [] := by
  rw [trim, trimLeft_eq_nil h]
  rfl

theorem isAllBlank_trimLeft (s : List Char) : isAllBlank (trimLeft s) = isAllBlank s := by
  have hblank : isAllBlank (s.takeWhile isBlank) = true := List.all_takeWhile
  have hsplit := isAllBlank_append (s.takeWhile isBlank) (trimLeft s)
  rw [trimLeft, List.takeWhile_append_dropWhile, hblank, Bool.true_and] at hsplit
  exact hsplit.symm

/-- Only the start of a text that is not blank is trimmed from the left. -/
theorem trimLeft_append (hs : isAllBlank s = false) : trimLeft (s ++ t) = trimLeft s ++ t := by
  have hrest : s.dropWhile isBlank ≠ [] := by
    intro h
    rw [isAllBlank, List.all_eq_true.mpr (List.dropWhile_eq_nil_iff.mp h)] at hs
    cases hs
  rw [trimLeft, List.dropWhile_append, if_neg (by simpa using hrest), trimLeft]

theorem trim_cons_of_blank {c : Char} (hc : isBlank c = true) : trim (c :: s) = trim s := by
  rw [trim, trimLeft, List.dropWhile_cons_of_pos hc, trim, trimLeft]

/-- Blanks around a text do not matter to what trimming leaves. -/
theorem trim_append_blank (hb : isAllBlank b = true) (ha : isAllBlank a = true) :
    trim (b ++ s ++ a) = trim s := by
  rw [trim, List.append_assoc, trimLeft_append_left hb]
  cases hs : isAllBlank s with
  | true => rw [trimLeft_append_left hs, trimLeft_eq_nil ha, trim, trimLeft_eq_nil hs]
  | false => rw [trimLeft_append hs, trimRight_append_right ha, trim]

/-- What trimming takes away are blanks around what it leaves. -/
theorem exists_around_trim (s : List Char) :
    ∃ b a, isAllBlank b = true ∧ isAllBlank a = true ∧ s = b ++ trim s ++ a := by
  refine ⟨s.takeWhile isBlank, ((trimLeft s).reverse.takeWhile isBlank).reverse, ?_, ?_, ?_⟩
  · exact List.all_takeWhile
  · rw [isAllBlank, List.all_reverse]
    exact List.all_takeWhile
  · have hright : trim s ++ ((trimLeft s).reverse.takeWhile isBlank).reverse = trimLeft s := by
      rw [trim, trimRight, ← List.reverse_append, List.takeWhile_append_dropWhile,
        List.reverse_reverse]
    rw [List.append_assoc, hright, trimLeft, List.takeWhile_append_dropWhile]

theorem trim_eq_self (h : Trimmed s) : trim s = s := by
  rw [trim, trimLeft_eq_self h.1, trimRight_eq_self h.2]

/-- **Trimming finds a trimmed text between blanks.** -/
theorem trim_around (hb : isAllBlank b = true) (h : Trimmed s) (ha : isAllBlank a = true) :
    trim (b ++ s ++ a) = s := by
  rw [trim_append_blank hb ha, trim_eq_self h]

theorem isAllBlank_trimRight (s : List Char) : isAllBlank (trimRight s) = isAllBlank s := by
  have hreverse (t : List Char) : isAllBlank t.reverse = isAllBlank t := List.all_reverse
  show isAllBlank (trimLeft s.reverse).reverse = isAllBlank s
  rw [hreverse, isAllBlank_trimLeft, hreverse]

/-- Only the end of a text that is not blank is trimmed from the right. -/
theorem trimRight_append (ht : isAllBlank t = false) : trimRight (s ++ t) = s ++ trimRight t := by
  -- seen from the right, the blanks end before the text does
  have hreverse : isAllBlank t.reverse = false := by rwa [isAllBlank, List.all_reverse]
  have hleft : (t.reverse ++ s.reverse).dropWhile isBlank =
      t.reverse.dropWhile isBlank ++ s.reverse := trimLeft_append hreverse
  rw [trimRight, List.reverse_append, hleft, List.reverse_append, List.reverse_reverse, trimRight]

theorem mem_of_mem_trimRight {c : Char} (h : c ∈ trimRight s) : c ∈ s :=
  List.mem_reverse.mp ((List.dropWhile_sublist _).subset (List.mem_reverse.mp h))

/-- Lines that end with a line feed, and a last one that does not, are taken apart again. -/
theorem splitLines_terminated (hs : '\n' ∉ s) : ∀ {lines : List (List Char)},
    (∀ line ∈ lines, '\n' ∉ line) →
      splitLines (lines.flatMap (· ++ ['\n']) ++ s) = lines ++ [s]
  | [], _ => List.splitOn_eq_singleton hs
  | line :: lines, h => by
      obtain ⟨hline, hlines⟩ := List.forall_mem_cons.mp h
      have htext : (line :: lines).flatMap (· ++ ['\n']) ++ s =
          line ++ '\n' :: (lines.flatMap (· ++ ['\n']) ++ s) := by simp
      rw [htext, splitLines, List.splitOn_append_cons_self_of_not_mem hline]
      exact congrArg (line :: ·) (splitLines_terminated hs hlines)

/-! ## Gaps -/

/-- A gap ends where something stands that is not blank. -/
theorem dropWhile_gap {gap : List Char} {c : Char} (hgap : isAllBlank gap = true)
    (hc : isBlank c = false) : (gap ++ c :: t).dropWhile isBlank = c :: t := by
  have hstart : ∀ d ∈ (c :: t).head?, isBlank d = false := by
    rintro d ⟨⟩
    exact hc
  exact (trimLeft_append_left hgap).trans (trimLeft_eq_self hstart)

theorem dropBlanks?_gap {gap : List Char} {c : Char} (hgap : isAllBlank gap = true)
    (hne : gap ≠ []) (hc : isBlank c = false) :
    dropBlanks? (gap ++ c :: t) = some (c :: t) := by
  obtain ⟨d, gap, rfl⟩ := List.exists_cons_of_ne_nil hne
  obtain ⟨hd, hgap⟩ := (Bool.and_eq_true _ _).mp (isAllBlank_cons d gap ▸ hgap)
  rw [List.cons_append, dropBlanks?, if_pos hd, dropWhile_gap hgap hc]

theorem exists_gap_of_dropBlanks? (h : dropBlanks? s = some t) :
    ∃ gap, isAllBlank gap = true ∧ gap ≠ [] ∧ s = gap ++ t := by
  cases s with
  | nil => cases h
  | cons c s =>
    rw [dropBlanks?] at h
    split at h
    · rename_i hc
      cases h
      refine ⟨c :: s.takeWhile isBlank, ?_, List.cons_ne_nil _ _, ?_⟩
      · rw [isAllBlank_cons, hc]
        exact List.all_takeWhile
      · rw [List.cons_append, List.takeWhile_append_dropWhile]
    · cases h

end SkillLint.Text
