import SkillLint.Markdown.Line
import SkillLint.Proofs.Text.Cut
import SkillLint.Proofs.Text.Trim

/-!
# Rows of tables, as they are written

A row is written cell by cell, with a blank around every cell and a pipe at either end of it.  What
stands in a cell is arbitrary, as long as a backslash stands right before every pipe
(`PipesEscaped`) and no comment starts in it.

The blanks keep the cells apart, so pipes are counted cell by cell (`pipeCount_append_blank`), and a
comment starts in a row only if it starts in a cell.  Hence **a written row is a row of a table, and
has as many columns as cells** (`Row.isTableRow_text`, `Row.columnCount_text`), whatever the cells
are.
-/

namespace SkillLint.Markdown

open SkillLint.Text

variable {s line : List Char}

/-! ## Pipes -/

/-- A backslash stands right before every pipe. -/
def PipesEscaped (s : List Char) : Prop :=
  ∀ before after, s = before ++ '|' :: after → before.getLast? = some '\\'

/-- **No pipe counts exactly if all of them are escaped.** -/
theorem pipeCount_eq_zero_iff (s : List Char) : pipeCount s = 0 ↔ PipesEscaped s := by
  fun_induction pipeCount s with
  | case1 rest ih =>
    -- the first two characters are an escaped pipe
    rw [ih]
    constructor
    · rintro h (_ | ⟨c, _ | ⟨d, before⟩⟩) after heq
      · cases heq
      · cases heq
        rfl
      · obtain ⟨rfl, rfl, rfl⟩ := by simpa using heq
        have hlast := h before after rfl
        rw [List.getLast?_cons_cons, List.getLast?_cons, hlast]
        rfl
    · rintro h before after rfl
      have hlast := h ('\\' :: '|' :: before) after rfl
      rw [List.getLast?_cons_cons] at hlast
      cases before with
      | nil => cases hlast
      | cons c before => rwa [List.getLast?_cons_cons] at hlast
  | case2 c rest hescape ih =>
    rw [Nat.add_eq_zero_iff, ih]
    constructor
    · rintro ⟨hpipe, h⟩ (_ | ⟨d, before⟩) after heq
      · cases heq
        cases hpipe
      · obtain ⟨rfl, rfl⟩ := by simpa using heq
        rw [List.getLast?_cons, h before after rfl]
        rfl
    · intro h
      refine ⟨?_, ?_⟩
      · have hpipe : c ≠ '|' := by
          rintro rfl
          cases h [] rest rfl
        simp [hpipe]
      · rintro (_ | ⟨d, before⟩) after rfl
        · have hlast := h [c] after rfl
          exact absurd (Option.some.inj hlast) fun hc => hescape after hc rfl
        · have hlast := h (c :: d :: before) after rfl
          rwa [List.getLast?_cons_cons] at hlast
  | case3 => simp [PipesEscaped]

instance (s : List Char) : Decidable (PipesEscaped s) :=
  decidable_of_iff (pipeCount s = 0) (pipeCount_eq_zero_iff s)

/-- A blank keeps the pipes before it and those after it apart. -/
theorem pipeCount_append_blank (a b : List Char) :
    pipeCount (a ++ ' ' :: b) = pipeCount a + pipeCount b := by
  fun_induction pipeCount a with
  | case1 rest ih =>
    rw [List.cons_append, List.cons_append, pipeCount, ih]
  | case2 c rest hescape ih =>
    rw [List.cons_append, pipeCount, ih, Nat.add_assoc]
    -- what follows the character starts as before, or with the blank
    intro after hc hrest
    cases rest with
    | nil => cases hrest
    | cons d rest => exact hescape rest hc (by rw [(List.cons.inj hrest).1])
  | case3 => simp [pipeCount]

theorem pipeCount_cons_pipe (s : List Char) : pipeCount ('|' :: s) = 1 + pipeCount s := by
  simp [pipeCount]

/-! ## Lines between pipes -/

/-- Every character takes at least one byte. -/
theorem length_le_byteLength (s : List Char) : s.length ≤ byteLength s := by
  have h : ∀ n, n + s.length ≤ s.foldl (fun n c => n + c.utf8Size) n := by
    induction s with
    | nil => exact fun n => Nat.le_refl _
    | cons c s ih =>
      intro n
      have hrest := ih (n + c.utf8Size)
      have hc := c.utf8Size_pos
      rw [List.foldl_cons, List.length_cons]
      omega
  have hzero := h 0
  rwa [Nat.zero_add] at hzero

theorem trim_between (inner : List Char) :
    trim ('|' :: inner ++ ['|']) = '|' :: inner ++ ['|'] := by
  refine trim_eq_self ⟨?_, ?_⟩
  · rintro c ⟨⟩
    rfl
  · rw [List.getLast?_append]
    rintro c ⟨⟩
    rfl

theorem isTableRow_between {inner : List Char} (h : inner ≠ []) :
    isTableRow ('|' :: inner ++ ['|']) = true := by
  have hlength := length_le_byteLength ('|' :: inner ++ ['|'])
  have hinner := List.length_pos_iff.mpr h
  rw [List.length_append, List.length_cons, List.length_singleton] at hlength
  have hlong : 2 < byteLength ('|' :: inner ++ ['|']) := by omega
  rw [isTableRow, trim_between, List.getLast?_append]
  simpa using hlong

/-! ## Comments -/

theorem hasComment_eq_true_iff : hasComment line = true ↔ "<!--".toList <:+: line := by
  rw [hasComment, occursIn, Option.isSome_iff_ne_none, Ne, cutAt?_eq_none_iff, not_not]

theorem hasComment_eq_false_of_notMem (h : '<' ∉ line) : hasComment line = false := by
  rw [← Bool.not_eq_true, hasComment_eq_true_iff]
  exact fun hstarts => h (hstarts.subset (by decide))

/-! ## Blank lines -/

theorem isFence_of_isAllBlank (h : isAllBlank line = true) : isFence line = false := by
  rw [isFence, trim_of_isAllBlank h]
  rfl

theorem isTableRow_of_isAllBlank (h : isAllBlank line = true) : isTableRow line = false := by
  rw [isTableRow, trim_of_isAllBlank h]
  rfl

theorem hasComment_of_isAllBlank (h : isAllBlank line = true) : hasComment line = false := by
  exact hasComment_eq_false_of_notMem (notMem_of_isAllBlank (by decide) h)

/-! ## Rows -/

/-- The text of a cell. -/
structure Cell where
  text : List Char
  oneLine : '\n' ∉ text
  uncommented : hasComment text = false
  escaped : PipesEscaped text

/-- The cells of a row, of which there is at least one. -/
structure Row where
  cells : List Cell
  nonempty : cells ≠ []

/-- A cell with the blanks around it and the pipe after it. -/
def Cell.written (c : Cell) : List Char := ' ' :: c.text ++ [' ', '|']

namespace Row

variable (r : Row)

/-- The number of cells. -/
def width : Nat := r.cells.length

/-- The row as it is written. -/
def text : List Char := '|' :: r.cells.flatMap Cell.written

theorem exists_inner : ∃ inner, inner ≠ [] ∧ r.text = '|' :: inner ++ ['|'] := by
  obtain ⟨init, last, hcells⟩ := (List.eq_nil_or_concat r.cells).resolve_left r.nonempty
  refine ⟨init.flatMap Cell.written ++ ' ' :: last.text ++ [' '], by simp, ?_⟩
  rw [text, hcells, List.concat_eq_append, List.flatMap_append, List.flatMap_singleton,
    Cell.written]
  simp

/-- **A written row is a row of a table.** -/
theorem isTableRow_text : isTableRow r.text = true := by
  obtain ⟨inner, hinner, htext⟩ := r.exists_inner
  rw [htext]
  exact isTableRow_between hinner

theorem pipeCount_written (cells : List Cell) :
    pipeCount (cells.flatMap Cell.written) = cells.length := by
  induction cells with
  | nil => rfl
  | cons c rest ih =>
    have hsplit : (c :: rest).flatMap Cell.written =
        [] ++ ' ' :: (c.text ++ ' ' :: '|' :: rest.flatMap Cell.written) := by
      simp [Cell.written]
    rw [hsplit, pipeCount_append_blank, pipeCount_append_blank, pipeCount_cons_pipe, ih,
      (pipeCount_eq_zero_iff c.text).mpr c.escaped, List.length_cons]
    simp only [pipeCount]
    omega

/-- **A written row has as many columns as cells.** -/
theorem columnCount_text : columnCount r.text = r.width := by
  obtain ⟨inner, -, htext⟩ := r.exists_inner
  have htrim : trim r.text = r.text := by rw [htext, trim_between]
  rw [columnCount, htrim, text, pipeCount_cons_pipe, pipeCount_written, width]
  omega

theorem not_comment_written (cells : List Cell) :
    ¬ "<!--".toList <:+: cells.flatMap Cell.written := by
  induction cells with
  | nil => decide
  | cons c rest ih =>
    have hsplit : (c :: rest).flatMap Cell.written =
        [] ++ ' ' :: (c.text ++ ' ' :: ([] ++ '|' :: rest.flatMap Cell.written)) := by
      simp [Cell.written]
    have hcell : ¬ "<!--".toList <:+: c.text := by
      rw [← hasComment_eq_true_iff, c.uncommented]
      exact Bool.false_ne_true
    rw [hsplit, infix_append_cons_iff (by decide), infix_append_cons_iff (by decide),
      infix_append_cons_iff (by decide)]
    rintro (h | h | h | h)
    · exact absurd h (by decide)
    · exact hcell h
    · exact absurd h (by decide)
    · exact ih h

theorem hasComment_text : hasComment r.text = false := by
  rw [← Bool.not_eq_true, hasComment_eq_true_iff, text, ← List.nil_append ('|' :: _),
    infix_append_cons_iff (by decide)]
  rintro (h | h)
  · exact absurd h (by decide)
  · exact not_comment_written r.cells h

end Row

/-! ## Separators -/

/-- The line between the header and the rows of a table with so many columns, as it is written. -/
def separator (columns : Nat) : List Char :=
  '|' :: (List.replicate columns ['-', '-', '-', '|']).flatten

theorem eq_of_mem_separator {columns : Nat} {c : Char} (h : c ∈ separator columns) :
    c = '-' ∨ c = '|' := by
  rw [separator, List.mem_cons, List.mem_flatten] at h
  rcases h with h | ⟨group, hgroup, hc⟩
  · exact .inr h
  · rw [List.eq_of_mem_replicate hgroup] at hc
    simpa using hc

theorem exists_separator_inner {columns : Nat} (h : 0 < columns) :
    ∃ inner, inner ≠ [] ∧ separator columns = '|' :: inner ++ ['|'] := by
  obtain ⟨n, rfl⟩ := Nat.exists_eq_succ_of_ne_zero h.ne'
  refine ⟨(List.replicate n ['-', '-', '-', '|']).flatten ++ ['-', '-', '-'], by simp, ?_⟩
  rw [separator, List.replicate_succ', List.flatten_append]
  simp

theorem isSeparatorRow_separator {columns : Nat} (h : 0 < columns) :
    isSeparatorRow (separator columns) = true := by
  obtain ⟨inner, hinner, htext⟩ := exists_separator_inner h
  have hlength : 2 ≤ (inner ++ ['|']).length := by
    have hpositive := List.length_pos_iff.mpr hinner
    rw [List.length_append, List.length_singleton]
    omega
  have hall : (inner ++ ['|']).all isSeparatorChar = true := by
    refine List.all_eq_true.mpr fun c hc => ?_
    have hmem : c ∈ separator columns := htext ▸ List.mem_cons_of_mem _ hc
    rcases eq_of_mem_separator hmem with rfl | rfl <;> rfl
  rw [htext, isSeparatorRow, trim_between, List.cons_append]
  simp only [hlength, hall, List.getLast?_concat, decide_true, beq_self_eq_true, Bool.and_self]

/-- A separator lies between pipes, so it is no fence. -/
theorem isTableRow_separator {columns : Nat} (h : 0 < columns) :
    isTableRow (separator columns) = true := by
  obtain ⟨inner, hinner, htext⟩ := exists_separator_inner h
  rw [htext]
  exact isTableRow_between hinner

theorem hasComment_separator (columns : Nat) : hasComment (separator columns) = false := by
  refine hasComment_eq_false_of_notMem fun hmem => ?_
  rcases eq_of_mem_separator hmem with h | h <;> cases h

end SkillLint.Markdown
