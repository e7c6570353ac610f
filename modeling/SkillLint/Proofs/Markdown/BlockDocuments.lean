import SkillLint.Proofs.Markdown.IssueOrder
import SkillLint.Proofs.Markdown.Rows

/-!
# Documents made of blocks

A document is written block by block, with a blank line after each: prose, closed code blocks and
tables.  Its lines carry marks, which say of every row below a header how many cells the header has
and how many the row (`BlockDocument.marked`), and `misfits` lists the rows in which the numbers
differ.

The second pass reads a stretch of lines if, whatever comes after them, it finds the misfits among
them and goes on in another mode (`Reads`).  Single lines are read, and stretches one after another
(`Reads.single`, `Reads.append`), so every block is read, and with the blank line the second pass
is back outside of tables and code (`Block.reads_marked`).

**In a document made of blocks a scan finds the misfits, and nothing else**
(`scanText_eq_misfits`).
-/

namespace SkillLint.Markdown

open SkillLint.Text

/-! ## Blocks -/

/-- A line of prose is neither a fence nor a row of a table. -/
abbrev ProseLine :=
  { line : List Char // '\n' ∉ line ∧ isFence line = false ∧ isTableRow line = false }

/-- A line that opens or closes a code block. -/
abbrev FenceLine := { line : List Char // '\n' ∉ line ∧ isFence line = true }

/-- A line inside of a code block is arbitrary, except that it is no fence. -/
abbrev CodeLine := { line : List Char // '\n' ∉ line ∧ isFence line = false }

/-- A line of blanks, or of nothing. -/
abbrev BlankLine := { line : List Char // '\n' ∉ line ∧ isAllBlank line = true }

/-- A stretch of a document. -/
inductive Block where
  | prose (lines : List ProseLine)
  | code (opening : FenceLine) (lines : List CodeLine) (closing : FenceLine)
  /-- A header, the separator and rows. -/
  | table (header : Row) (rows : List Row)

/-- A line, with a mark if it is a row below the header of a table: the number of cells of the
header, and that of the row. -/
abbrev MarkedLine := List Char × Option (Nat × Nat)

/-- The lines of a block. -/
def Block.marked : Block → List MarkedLine
  | .prose lines => lines.map fun line => (line.1, none)
  | .code opening lines closing =>
    (opening.1, none) :: lines.map (fun line => (line.1, none)) ++ [(closing.1, none)]
  | .table header rows =>
    (header.text, none) :: (separator header.width, none) ::
      rows.map fun row => (row.text, some (header.width, row.width))

/-- The breakage of the line with a number, which is a row with another number of cells than its
header. -/
def misfit? : MarkedLine × Nat → Option Breakage
  | ((_, some (expected, found)), n) =>
    if found = expected then none
    else
      some ⟨n, .columnCountMismatch,
        "Expected " ++ toString expected ++ " columns, got " ++ toString found⟩
  | ((_, none), _) => none

/-- The breakages of the rows that do not fit their headers, in lines from number `n` on. -/
def misfits (n : Nat) (marked : List MarkedLine) : List Breakage :=
  (marked.zipIdx n).filterMap misfit?

/-- Blocks, each with the blank line after it. -/
structure BlockDocument where
  blocks : List (Block × BlankLine)

namespace BlockDocument

variable (doc : BlockDocument)

/-- The lines of the document, with their marks. -/
def marked : List MarkedLine :=
  doc.blocks.flatMap fun (block, blank) => block.marked ++ [(blank.1, none)]

/-- The lines of the document. -/
def lines : List (List Char) := doc.marked.map Prod.fst

/-- The document as a text, with a line feed after every line. -/
def text : String := String.ofList (doc.lines.flatMap (· ++ ['\n']))

end BlockDocument

/-! ## Reading stretches of lines -/

variable {n : Nat} {mode mode' mode'' : Mode} {a b : List MarkedLine}

theorem misfits_append (n : Nat) (a b : List MarkedLine) :
    misfits n (a ++ b) = misfits n a ++ misfits (n + a.length) b := by
  rw [misfits, List.zipIdx_append, List.filterMap_append]
  rfl

/-- Whatever comes after the lines, the second pass finds the misfits among them and goes on in the
other mode. -/
def Reads (marked : List MarkedLine) (mode mode' : Mode) : Prop :=
  ∀ n rest, tableBreakages n mode (marked.map Prod.fst ++ rest) =
    misfits n marked ++ tableBreakages (n + marked.length) mode' rest

theorem Reads.nil (mode : Mode) : Reads [] mode mode := fun _ _ => rfl

/-- A line is read in one step. -/
theorem Reads.single {m : MarkedLine}
    (h : ∀ n, mode.step n m.1 = ((misfit? (m, n)).toList, mode')) : Reads [m] mode mode' := by
  intro n rest
  have hfound : misfits n [m] = (misfit? (m, n)).toList := by
    rw [misfits, List.zipIdx_singleton, List.filterMap_cons]
    cases misfit? (m, n) <;> rfl
  rw [List.map_singleton, List.singleton_append, tableBreakages, h, hfound]
  rfl

/-- Stretches are read one after another. -/
theorem Reads.append (ha : Reads a mode mode') (hb : Reads b mode' mode'') :
    Reads (a ++ b) mode mode'' := by
  intro n rest
  rw [List.map_append, List.append_assoc, ha, hb, misfits_append, List.append_assoc,
    List.length_append, Nat.add_assoc]

theorem Reads.cons {m : MarkedLine} (hm : Reads [m] mode mode') (hb : Reads b mode' mode'') :
    Reads (m :: b) mode mode'' := hm.append hb

/-- Lines that leave the mode as it is are read in any number. -/
theorem Reads.map {α : Type} {f : α → MarkedLine} (h : ∀ x, Reads [f x] mode mode) :
    ∀ xs : List α, Reads (xs.map f) mode mode
  | [] => Reads.nil mode
  | x :: xs => (h x).cons (Reads.map h xs)

/-! ## Reading blocks -/

/-- Outside of tables every line is read in silence. -/
theorem reads_text {line : List Char} {inCode : Bool} (h : Mode.afterText inCode line = mode') :
    Reads [(line, none)] (.text inCode) mode' :=
  .single fun _ => by
    rw [Mode.step, h]
    rfl

theorem reads_plain {line : List Char} (hfence : isFence line = false)
    (hrow : isTableRow line = false) : Reads [(line, none)] (.text false) (.text false) :=
  reads_text (by simp [Mode.afterText, hfence, hrow])

theorem reads_fence {line : List Char} {inCode : Bool} (hfence : isFence line = true) :
    Reads [(line, none)] (.text inCode) (.text !inCode) :=
  reads_text (by rw [Mode.afterText, if_pos hfence])

theorem reads_code {line : List Char} (hfence : isFence line = false) :
    Reads [(line, none)] (.text true) (.text true) :=
  reads_text (by simp [Mode.afterText, hfence])

theorem Row.reads_header (r : Row) : Reads [(r.text, none)] (.text false) (.header r.width) := by
  refine reads_text ?_
  simp [Mode.afterText, isFence_eq_false_of_isTableRow r.isTableRow_text, r.isTableRow_text,
    r.columnCount_text]

theorem reads_separator {columns : Nat} (h : 0 < columns) :
    Reads [(separator columns, none)] (.header columns) (.rows columns) :=
  .single fun _ => by
    simp [Mode.step, hasComment_separator, isSeparatorRow_separator h, misfit?]

/-- A row below the header is a misfit if it has another number of cells. -/
theorem Row.reads_row (r : Row) (columns : Nat) :
    Reads [(r.text, some (columns, r.width))] (.rows columns) (.rows columns) :=
  .single fun n => by
    by_cases hfits : r.width = columns <;>
      simp [Mode.step, r.hasComment_text, r.isTableRow_text, r.columnCount_text, misfit?, hfits]

/-- A blank line ends a table. -/
theorem reads_blank_rows {line : List Char} (h : isAllBlank line = true) (columns : Nat) :
    Reads [(line, none)] (.rows columns) (.text false) :=
  .single fun _ => by
    simp [Mode.step, Mode.afterText, hasComment_of_isAllBlank h, isTableRow_of_isAllBlank h,
      isFence_of_isAllBlank h, misfit?]

/-- **A block is read**, and after the blank line the second pass is outside of tables and code. -/
theorem Block.reads_marked (block : Block) (blank : BlankLine) :
    Reads (block.marked ++ [(blank.1, none)]) (.text false) (.text false) := by
  have hblank : Reads [(blank.1, none)] (.text false) (.text false) :=
    reads_plain (isFence_of_isAllBlank blank.2.2) (isTableRow_of_isAllBlank blank.2.2)
  cases block with
  | prose lines =>
    exact (Reads.map (fun line => reads_plain line.2.2.1 line.2.2.2) lines).append hblank
  | code opening lines closing =>
    have hopen : Reads [(opening.1, none)] (.text false) (.text true) := reads_fence opening.2.2
    have hcode := Reads.map (fun line : CodeLine => reads_code line.2.2) lines
    have hclose : Reads [(closing.1, none)] (.text true) (.text false) := reads_fence closing.2.2
    exact ((hopen.cons hcode).append hclose).append hblank
  | table header rows =>
    have hwidth : 0 < header.width := List.length_pos_iff.mpr header.nonempty
    have hrows := Reads.map (fun row : Row => row.reads_row header.width) rows
    exact (header.reads_header.cons ((reads_separator hwidth).cons hrows)).append
      (reads_blank_rows blank.2.2 _)

/-! ## Fences of blocks -/

theorem oddFences_eq_false {lines : List (List Char)} (h : ∀ line ∈ lines, isFence line = false) :
    oddFences lines = false := by
  have hzero : lines.countP isFence = 0 :=
    List.countP_eq_zero.mpr fun line hline => Bool.not_eq_true _ ▸ h line hline
  rw [oddFences, hzero]
  rfl

/-- The code blocks are closed. -/
theorem Block.oddFences_marked (block : Block) : oddFences (block.marked.map Prod.fst) = false := by
  cases block with
  | prose lines =>
    refine oddFences_eq_false fun line hline => ?_
    simp only [marked, List.map_map, List.mem_map] at hline
    obtain ⟨line, -, rfl⟩ := hline
    exact line.2.2.1
  | code opening lines closing =>
    have hcode : oddFences (lines.map Subtype.val) = false := by
      refine oddFences_eq_false fun line hline => ?_
      obtain ⟨line, -, rfl⟩ := List.mem_map.mp hline
      exact line.2.2
    have hlines : (Block.code opening lines closing).marked.map Prod.fst =
        opening.1 :: lines.map Subtype.val ++ [closing.1] := by
      simp only [marked, List.map_append, List.map_cons, List.map_map, List.map_nil]
      rfl
    rw [hlines, List.cons_append, oddFences_cons, oddFences_append, oddFences_singleton, hcode,
      opening.2.2, closing.2.2]
    rfl
  | table header rows =>
    have hwidth : 0 < header.width := List.length_pos_iff.mpr header.nonempty
    refine oddFences_eq_false fun line hline => isFence_eq_false_of_isTableRow ?_
    simp only [marked, List.map_cons, List.map_map, List.mem_cons, List.mem_map] at hline
    obtain rfl | rfl | ⟨row, -, rfl⟩ := hline
    · exact header.isTableRow_text
    · exact isTableRow_separator hwidth
    · exact row.isTableRow_text

namespace BlockDocument

theorem reads_marked (doc : BlockDocument) : Reads doc.marked (.text false) (.text false) := by
  obtain ⟨blocks⟩ := doc
  induction blocks with
  | nil => exact Reads.nil _
  | cons b rest ih => exact (b.1.reads_marked b.2).append ih

theorem lines_cons (block : Block) (blank : BlankLine) (rest : List (Block × BlankLine)) :
    lines ⟨(block, blank) :: rest⟩ = block.marked.map Prod.fst ++ [blank.1] ++ lines ⟨rest⟩ := by
  simp [lines, marked]

theorem oddFences_lines (doc : BlockDocument) : oddFences doc.lines = false := by
  obtain ⟨blocks⟩ := doc
  induction blocks with
  | nil => rfl
  | cons b rest ih =>
    rw [lines_cons, oddFences_append, oddFences_append, oddFences_singleton, b.1.oddFences_marked,
      isFence_of_isAllBlank b.2.2.2, ih]
    rfl

end BlockDocument

/-! ## Lines of blocks -/

theorem Row.newline_notMem_text (r : Row) : '\n' ∉ r.text := by
  rw [text, List.mem_cons, List.mem_flatMap]
  rintro (h | ⟨c, -, h⟩)
  · cases h
  · have hcell := c.oneLine
    simp [Cell.written, hcell] at h

theorem newline_notMem_separator (columns : Nat) : '\n' ∉ separator columns := by
  intro hmem
  rcases eq_of_mem_separator hmem with h | h <;> cases h

theorem Block.newline_notMem {block : Block} {line : List Char}
    (h : line ∈ block.marked.map Prod.fst) : '\n' ∉ line := by
  cases block with
  | prose lines =>
    simp only [marked, List.map_map, List.mem_map] at h
    obtain ⟨line, -, rfl⟩ := h
    exact line.2.1
  | code opening lines closing =>
    simp only [marked, List.map_append, List.map_cons, List.map_map, List.map_nil,
      List.cons_append, List.mem_cons, List.mem_append, List.mem_map, List.not_mem_nil,
      or_false] at h
    obtain rfl | ⟨line, -, rfl⟩ | rfl := h
    · exact opening.2.1
    · exact line.2.1
    · exact closing.2.1
  | table header rows =>
    simp only [marked, List.map_cons, List.map_map, List.mem_cons, List.mem_map] at h
    obtain rfl | rfl | ⟨row, -, rfl⟩ := h
    · exact header.newline_notMem_text
    · exact newline_notMem_separator _
    · exact row.newline_notMem_text

theorem BlockDocument.newline_notMem {doc : BlockDocument} {line : List Char}
    (h : line ∈ doc.lines) : '\n' ∉ line := by
  obtain ⟨blocks⟩ := doc
  induction blocks with
  | nil => cases h
  | cons b rest ih =>
    rw [lines_cons, List.mem_append, List.mem_append, List.mem_singleton] at h
    obtain (h | rfl) | h := h
    · exact Block.newline_notMem h
    · exact b.2.2.1
    · exact ih h

/-- Lines that all end with a line feed are found again, unless it makes a line end with the
carriage return before it. -/
theorem terminatedLines_flatMap {lines : List (List Char)} (hfeeds : ∀ line ∈ lines, '\n' ∉ line)
    (hreturns : ∀ line ∈ lines, line.getLast? ≠ some '\r') :
    terminatedLines (lines.flatMap (· ++ ['\n'])) = lines := by
  have hpieces : splitLines (lines.flatMap (· ++ ['\n'])) = lines ++ [[]] := by
    have hsplit := splitLines_terminated List.not_mem_nil hfeeds
    rwa [List.append_nil] at hsplit
  have hkept : lines.map dropReturn = lines := by
    refine (List.map_congr_left fun line hline => ?_).trans (List.map_id lines)
    rw [dropReturn, if_neg (hreturns line hline), id]
  rw [terminatedLines, hpieces, List.dropLast_concat, hkept, List.getLast?_concat]
  exact List.append_nil _

/-! ## Scans -/

/-- **A scan finds the misfits of a document made of blocks, and nothing else**, however its lines
end.  With a line feed each they are those of the text of the document, if no carriage return ends
one of them. -/
theorem scanText_eq_misfits (file : Path) (doc : BlockDocument) :
    ((∀ line ∈ doc.lines, line.getLast? ≠ some '\r') →
      terminatedLines doc.text.toList = doc.lines) ∧
      ∀ content : String, terminatedLines content.toList = doc.lines →
        scanText file content = (misfits 1 doc.marked).map (·.inFile file) := by
  refine ⟨fun hreturns => ?_, fun content hlines => ?_⟩
  · rw [BlockDocument.text, String.toList_ofList]
    exact terminatedLines_flatMap (fun line => BlockDocument.newline_notMem) hreturns
  · have hclosed : fenceBreakages doc.lines = [] := by
      rcases fenceBreakages_cases doc.lines with ⟨-, hnone⟩ | ⟨b, hodd, -⟩
      · exact hnone
      · rw [doc.oddFences_lines] at hodd
        cases hodd
    have htables : tableBreakages 1 (.text false) doc.lines = misfits 1 doc.marked := by
      have hreads := doc.reads_marked 1 []
      rwa [List.append_nil, tableBreakages, List.append_nil] at hreads
    rw [scanText_eq, hlines, hclosed, htables]
    rfl

/-! ## A document of all blocks -/

/-- Prose, a code block with a line between pipes, and a table in which one row has a cell too few:
its pipe is escaped. -/
def mixedDocument : BlockDocument where
  blocks :=
    [(.prose [⟨"text".toList, by decide⟩], ⟨[], by decide⟩),
      (.code ⟨List.replicate 3 '\x60', by decide⟩ [⟨"|x|".toList, by decide⟩]
        ⟨List.replicate 3 '\x60', by decide⟩, ⟨" ".toList, by decide⟩),
      (.table ⟨[⟨"a".toList, by decide, by decide, by decide⟩,
          ⟨"b".toList, by decide, by decide, by decide⟩], by decide⟩
        [⟨[⟨"1 \\| 2".toList, by decide, by decide, by decide⟩], by decide⟩,
          ⟨[⟨"\\".toList, by decide, by decide, by decide⟩,
            ⟨[], by decide, by decide, by decide⟩], by decide⟩], ⟨[], by decide⟩)]

/-- The document with line ends of both kinds. -/
def mixedText : String :=
  "text\r\n\n\x60\x60\x60\n|x|\r\n\x60\x60\x60\n \n" ++
    "| a | b |\n|---|---|\r\n| 1 \\| 2 |\n| \\ |  |\n\n"

theorem scanText_eq_misfits_mixedText :
    terminatedLines mixedDocument.text.toList = mixedDocument.lines ∧
      terminatedLines mixedText.toList = mixedDocument.lines ∧
        scanText ⟨"t.md"⟩ mixedText =
          [⟨⟨"t.md"⟩, 9, .columnCountMismatch, "Expected 2 columns, got 1"⟩] := by
  obtain ⟨htext, hscan⟩ := scanText_eq_misfits ⟨"t.md"⟩ mixedDocument
  have hlines : terminatedLines mixedText.toList = mixedDocument.lines := by decide +kernel
  have hmisfits : (misfits 1 mixedDocument.marked).map (·.inFile ⟨"t.md"⟩) =
      [⟨⟨"t.md"⟩, 9, .columnCountMismatch, "Expected 2 columns, got 1"⟩] := by
    decide +kernel
  exact ⟨htext (by decide +kernel), hlines, (hscan mixedText hlines).trans hmisfits⟩

end SkillLint.Markdown
