import Mathlib.Data.List.DropRight
import Mathlib.Data.List.ModifyLast
import Mathlib.Logic.Relation
import SkillLint.Proofs.Header.Sections
import SkillLint.Proofs.Text.Lines

/-!
# Blank lines and line ends

Whether the lines of a header end with a line feed alone or with a carriage return before it, and
whether there are blank lines between them, makes no difference to the restricted parser
(`parse_respaced`).  Carriage returns could get in the way, because lines are told apart before they
are trimmed, and because only the first and the last line are trimmed with the text.

What the parser reads is a function of the `content` of a text: its lines that are not blank,
without the carriage returns at their ends.  A carriage return at the end of a line changes neither
the kind of the line nor what it says (`classify_return`), and trimming the text trims the first
line of its content from the left and the last from the right (`content_trimLeft`,
`content_trimRight`).  **Blank lines and carriage returns do not change the content, wherever they
are put** (`Respaced.content_eq`).
-/

namespace SkillLint.Header.Restricted

open SkillLint.Text
open Relation

variable {line s t : List Char}

/-! ## A carriage return at the end of a line -/

theorem prefix_return_iff {p : List Char} (hp : '\r' ∉ p) : p <+: line ++ ['\r'] ↔ p <+: line :=
  ⟨prefix_of_prefix_append_cons hp, fun h => h.trans (List.prefix_append _ _)⟩

theorem isItemLine_return_iff : IsItemLine (line ++ ['\r']) ↔ IsItemLine line := by
  rw [IsItemLine, prefix_return_iff (by decide), prefix_return_iff (by decide), IsItemLine]

theorem colon_mem_return_iff : ':' ∈ line ++ ['\r'] ↔ ':' ∈ line := by simp

theorem trim_return (line : List Char) : trim (line ++ ['\r']) = trim line :=
  trim_append_blank (b := []) rfl (by decide)

/-- **A carriage return at the end of a line means nothing.** -/
theorem classify_return (line : List Char) :
    Line.classify (line ++ ['\r']) = Line.classify line := by
  have hentry : IsEntryLine (line ++ ['\r']) ↔ IsEntryLine line := by
    rw [IsEntryLine, isItemLine_return_iff, prefix_return_iff (by decide), colon_mem_return_iff,
      IsEntryLine]
  have hkey : IsKeyLine (line ++ ['\r']) ↔ IsKeyLine line := by
    rw [IsKeyLine, prefix_return_iff (by decide), colon_mem_return_iff, IsKeyLine]
  have hitem : itemText (line ++ ['\r']) = itemText line := by
    rw [itemText, trim_return, itemText]
  by_cases hcolon : ':' ∈ line
  · obtain ⟨before, after, rfl, hbefore⟩ := List.eq_append_cons_of_mem hcolon
    have hline : before ++ ':' :: after ++ ['\r'] = before ++ ':' :: (after ++ ['\r']) := by simp
    have hkeyText :
        keyText (before ++ ':' :: after ++ ['\r']) = keyText (before ++ ':' :: after) := by
      rw [hline, keyText_append hbefore, keyText_append hbefore]
    have hvalueText :
        valueText (before ++ ':' :: after ++ ['\r']) = valueText (before ++ ':' :: after) := by
      rw [hline, valueText_append hbefore, valueText_append hbefore, trim_return]
    simp only [classify_eq, isItemLine_return_iff, hentry, hkey, hitem, hkeyText, hvalueText]
  · -- without a colon the line is an item or means nothing
    have hnoEntry : ¬ IsEntryLine line := fun h => hcolon h.2.2
    have hnoKey : ¬ IsKeyLine line := fun h => hcolon h.1
    simp only [classify_eq, isItemLine_return_iff, hentry, hkey, hitem, hnoEntry, hnoKey, ite_false]

/-! ## Lines without carriage returns at their ends -/

/-- The line without the carriage returns at its end. -/
def bare (line : List Char) : List Char := line.rdropWhile (· == '\r')

theorem bare_return (line : List Char) : bare (line ++ ['\r']) = bare line :=
  List.rdropWhile_concat_pos _ _ _ rfl

theorem bare_concat {c : Char} (hc : c ≠ '\r') (line : List Char) :
    bare (line ++ [c]) = line ++ [c] :=
  List.rdropWhile_concat_neg _ _ _ (by simpa using hc)

theorem classify_bare (line : List Char) : Line.classify (bare line) = Line.classify line := by
  induction line using List.reverseRecOn with
  | nil => rfl
  | append_singleton line c ih =>
    by_cases hc : c = '\r'
    · rw [hc, bare_return, ih, classify_return]
    · rw [bare_concat hc]

theorem trimRight_bare (line : List Char) : trimRight (bare line) = trimRight line := by
  induction line using List.reverseRecOn with
  | nil => rfl
  | append_singleton line c ih =>
    by_cases hc : c = '\r'
    · rw [hc, bare_return, ih, trimRight_append_right (by decide)]
    · rw [bare_concat hc]

/-- What is trimmed from the right has no carriage return at its end. -/
theorem bare_trimRight (line : List Char) : bare (trimRight line) = trimRight line := by
  refine List.rdropWhile_eq_self_iff.mpr fun hne hreturn => ?_
  have hlast : ¬ isBlank ((trimRight line).getLast hne) = true :=
    List.rdropWhile_last_not isBlank line hne
  rw [eq_of_beq hreturn] at hlast
  exact hlast (by decide)

theorem isAllBlank_return (line : List Char) : isAllBlank (line ++ ['\r']) = isAllBlank line := by
  rw [isAllBlank_append, show isAllBlank ['\r'] = true by decide, Bool.and_true]

/-- In a line that is not blank, the carriage returns at the end are not trimmed from the left. -/
theorem bare_trimLeft (hline : isAllBlank line = false) :
    bare (trimLeft line) = trimLeft (bare line) := by
  induction line using List.reverseRecOn with
  | nil => rfl
  | append_singleton line c ih =>
    by_cases hc : c = '\r'
    · subst hc
      rw [isAllBlank_return] at hline
      rw [trimLeft_append hline, bare_return, bare_return, ih hline]
    · -- the last character stays the last one
      have hlast : ∃ front, trimLeft (line ++ [c]) = front ++ [c] := by
        cases hrest : isAllBlank line with
        | false => exact ⟨_, trimLeft_append hrest⟩
        | true =>
          rw [isAllBlank_append, hrest, Bool.true_and] at hline
          have hblank : isBlank c = false := by simpa [isAllBlank] using hline
          refine ⟨[], (trimLeft_append_left hrest).trans ?_⟩
          exact trimLeft_eq_self (trimmed_singleton hblank).1
      obtain ⟨front, hfront⟩ := hlast
      rw [bare_concat hc, hfront, bare_concat hc]

/-! ## The content of a text -/

/-- The lines of a text that are not blank, without the carriage returns at their ends. -/
def content (s : List Char) : List (List Char) :=
  ((splitLines s).filter fun line => !isAllBlank line).map bare

theorem content_append (s t : List Char) : content (s ++ '\n' :: t) = content s ++ content t := by
  rw [content, splitLines, List.splitOn_append_cons_self, List.filter_append, List.map_append]
  rfl

theorem content_of_oneLine (h : '\n' ∉ s) :
    content s = if isAllBlank s then [] else [bare s] := by
  rw [content, splitLines, List.splitOn_eq_singleton h]
  cases hs : isAllBlank s <;> simp [hs]

theorem content_eq_nil_iff : content s = [] ↔ isAllBlank s = true := by
  induction s using lines_induction with
  | last s h => simp [content_of_oneLine h]
  | line a b ha ih =>
    have hbreak : isBlank '\n' = true := by decide
    rw [content_append, List.append_eq_nil_iff, ih, content_of_oneLine ha]
    simp [isAllBlank, hbreak]

theorem content_return (s : List Char) : content (s ++ ['\r']) = content s := by
  induction s using lines_induction with
  | last s h =>
    have h' : '\n' ∉ s ++ ['\r'] := by simpa using h
    rw [content_of_oneLine h', content_of_oneLine h, isAllBlank_return, bare_return]
  | line a b _ ih =>
    rw [List.append_assoc, List.cons_append, content_append, ih, content_append]

theorem content_joinLines (lines : List (List Char)) :
    content (joinLines lines) = lines.flatMap content := by
  induction lines with
  | nil => rfl
  | cons line rest ih =>
    cases rest with
    | nil => simp
    | cons next rest =>
      rw [joinLines_cons_cons, content_append, ih]
      rfl

theorem content_trimLeft_of_oneLine (h : '\n' ∉ s) :
    content (trimLeft s) = (content s).modifyHead trimLeft := by
  have h' : '\n' ∉ trimLeft s := fun hmem => h ((List.dropWhile_sublist _).subset hmem)
  rw [content_of_oneLine h', content_of_oneLine h, isAllBlank_trimLeft]
  cases hs : isAllBlank s with
  | true => rfl
  | false =>
    rw [bare_trimLeft hs]
    rfl

/-- Trimming a text from the left trims the first line of its content. -/
theorem content_trimLeft (s : List Char) :
    content (trimLeft s) = (content s).modifyHead trimLeft := by
  induction s using lines_induction with
  | last s h => exact content_trimLeft_of_oneLine h
  | line a b ha ih =>
    cases hblank : isAllBlank a with
    | true =>
      have hline : isAllBlank (a ++ ['\n']) = true := by
        rw [isAllBlank_append, hblank]
        decide
      rw [content_append, content_eq_nil_iff.mpr hblank, List.append_cons,
        trimLeft_append_left hline, ih, List.nil_append]
    | false =>
      rw [trimLeft_append hblank, content_append, content_trimLeft_of_oneLine ha, content_append,
        content_of_oneLine ha, hblank]
      rfl

theorem content_trimRight_of_oneLine (h : '\n' ∉ s) :
    content (trimRight s) = (content s).modifyLast trimRight := by
  have h' : '\n' ∉ trimRight s := fun hmem => h (mem_of_mem_trimRight hmem)
  rw [content_of_oneLine h', content_of_oneLine h, isAllBlank_trimRight, bare_trimRight]
  cases isAllBlank s with
  | true => rfl
  | false =>
    rw [← trimRight_bare]
    rfl

/-- Trimming a text from the right trims the last line of its content. -/
theorem content_trimRight (s : List Char) :
    content (trimRight s) = (content s).modifyLast trimRight := by
  induction s using lines_induction with
  | last s h => exact content_trimRight_of_oneLine h
  | line a b ha ih =>
    cases hblank : isAllBlank b with
    | true =>
      have hline : isAllBlank ('\n' :: b) = true := by
        rw [← List.singleton_append, isAllBlank_append, hblank]
        decide
      rw [trimRight_append_right hline, content_append, content_eq_nil_iff.mpr hblank,
        List.append_nil, content_trimRight_of_oneLine ha]
    | false =>
      have hne : content b ≠ [] := by
        rw [Ne, content_eq_nil_iff, hblank]
        decide
      have htrim : trimRight (a ++ '\n' :: b) = a ++ '\n' :: trimRight b := by
        rw [List.append_cons, trimRight_append hblank, ← List.append_cons]
      rw [htrim, content_append, ih, content_append,
        List.modifyLast_append_of_right_ne_nil _ _ _ hne]

/-- **What the parser reads is a function of the content.** -/
theorem parse_eq_of_content (h : content s = content t) :
    parse (String.ofList s) = parse (String.ofList t) := by
  have hread (s : List Char) : (contentLines (String.ofList s)).map Line.classify =
      (((content s).modifyHead trimLeft).modifyLast trimRight).map Line.classify := by
    rw [← content_trimLeft, ← content_trimRight, content, List.map_map, contentLines,
      String.toList_ofList]
    exact List.map_congr_left fun line _ => (classify_bare line).symm
  rw [parse_eq_foldl, parse_eq_foldl, hread, hread, h]

/-! ## Changes that do not matter -/

/-- One line is blank and is put in, or one line gets a carriage return at its end. -/
inductive Respaced : List Char → List Char → Prop
  | blankLine (before after : List (List Char)) (line : List Char) (h : isAllBlank line = true) :
      Respaced (joinLines (before ++ after)) (joinLines (before ++ line :: after))
  | carriageReturn (before after : List (List Char)) (line : List Char) :
      Respaced (joinLines (before ++ line :: after))
        (joinLines (before ++ (line ++ ['\r']) :: after))

theorem Respaced.content_eq (h : Respaced s t) : content s = content t := by
  cases h with
  | blankLine before after line h =>
    simp only [content_joinLines, List.flatMap_append, List.flatMap_cons, content_eq_nil_iff.mpr h,
      List.nil_append]
  | carriageReturn before after line =>
    simp only [content_joinLines, List.flatMap_append, List.flatMap_cons, content_return]

/-- The text with a carriage return before every line feed. -/
def withReturns (s : List Char) : List Char :=
  s.flatMap fun c => if c = '\n' then ['\r', '\n'] else [c]

theorem withReturns_append (s t : List Char) :
    withReturns (s ++ t) = withReturns s ++ withReturns t := List.flatMap_append

theorem withReturns_of_oneLine (h : '\n' ∉ s) : withReturns s = s := by
  have hself : ∀ c ∈ s, (if c = '\n' then ['\r', '\n'] else [c]) = [c] :=
    fun c hc => if_neg fun he : c = '\n' => h (he ▸ hc)
  rw [withReturns, List.flatMap_congr hself, List.flatMap_singleton']

theorem content_withReturns (s : List Char) : content (withReturns s) = content s := by
  induction s using lines_induction with
  | last s h => rw [withReturns_of_oneLine h]
  | line a b ha ih =>
    have hline : withReturns (a ++ '\n' :: b) = (a ++ ['\r']) ++ '\n' :: withReturns b := by
      rw [withReturns_append, withReturns_of_oneLine ha]
      simp [withReturns]
    rw [hline, content_append, content_return, ih, content_append]

/-- **Line ends and blank lines do not matter.**  Texts that differ in them are read alike, and so
are a text and the same text with a carriage return before every line feed. -/
theorem parse_respaced :
    (∀ s t, EqvGen Respaced s t → parse (String.ofList s) = parse (String.ofList t)) ∧
      ∀ s, parse (String.ofList (withReturns s)) = parse (String.ofList s) := by
  refine ⟨fun s t h => parse_eq_of_content ?_, fun s => parse_eq_of_content (content_withReturns s)⟩
  induction h with
  | rel s t h => exact h.content_eq
  | refl s => rfl
  | symm s t _ ih => exact ih.symm
  | trans s t u _ _ ihst ihtu => exact ihst.trans ihtu

/-- Three changes in one header: a blank line is taken out at its start, another one is put in above
an item, and the item gets a carriage return. -/
theorem parse_respaced_item :
    EqvGen Respaced " \nk:\n  - a".toList "k:\n\t\n  - a\r".toList ∧
      parse (String.ofList " \nk:\n  - a".toList) =
        parse (String.ofList "k:\n\t\n  - a\r".toList) := by
  have hout : Respaced "k:\n  - a".toList " \nk:\n  - a".toList :=
    .blankLine [] ["k:".toList, "  - a".toList] " ".toList (by decide)
  have hin : Respaced "k:\n  - a".toList "k:\n\t\n  - a".toList :=
    .blankLine ["k:".toList] ["  - a".toList] "\t".toList (by decide)
  have hreturn : Respaced "k:\n\t\n  - a".toList "k:\n\t\n  - a\r".toList :=
    .carriageReturn ["k:".toList, "\t".toList] [] "  - a".toList
  have h : EqvGen Respaced " \nk:\n  - a".toList "k:\n\t\n  - a\r".toList :=
    .trans _ _ _ (.symm _ _ (.rel _ _ hout)) (.trans _ _ _ (.rel _ _ hin) (.rel _ _ hreturn))
  exact ⟨h, parse_respaced.1 _ _ h⟩

end SkillLint.Header.Restricted
