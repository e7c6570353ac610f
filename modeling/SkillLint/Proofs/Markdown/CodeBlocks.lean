import Mathlib.Data.List.Induction
import SkillLint.Markdown.Scan
import SkillLint.Proofs.Text.Cut

/-!
# Code blocks and tables

Fences open and close code blocks by turns, and the first pass of `scanText` pairs them up.
The second pass keeps a flag of its own, by which it leaves tables in code alone.  After some
lines the flag is that of a mode (`modeAfter`, `Mode.inCode`), and the number of fences among
these lines says what it should be.

The flag follows every fence but one kind: the line below the header of a table is taken for
a separator, and never looked at as a fence (`inCode_step`).  **So the two passes agree on
what is code, and no table is judged inside of it, if and only if no such line is a fence,
the last line apart** (`respectsCode_iff`).  The first one that is leaves code and text in each
other's places (`inCode_modeAfter_concat_ne`, `not_respectsCode`).
-/

namespace SkillLint.Markdown

open SkillLint.Text

variable {n : Nat} {mode : Mode} {line : List Char} {lines : List (List Char)}

/-! ## What is code -/

/-- A block is open after lines with an odd number of fences. -/
def oddFences (lines : List (List Char)) : Bool := lines.countP isFence % 2 == 1

/-- The line with the number lies between a fence that opens a block and the fence that closes
it, or the end.  The first pass tells which fences open. -/
def InsideCode (lines : List (List Char)) (n : Nat) : Prop :=
  ∃ before line after, lines = before ++ line :: after ∧ n = before.length + 1 ∧
    (openFence? 1 none before).isSome = true ∧ isFence line = false

theorem oddFences_append (a b : List (List Char)) :
    oddFences (a ++ b) = (oddFences a ^^ oddFences b) := by
  simp only [oddFences, List.countP_append]
  rcases Nat.mod_two_eq_zero_or_one (a.countP isFence) with ha | ha <;>
    rcases Nat.mod_two_eq_zero_or_one (b.countP isFence) with hb | hb <;>
      simp [ha, hb, Nat.add_mod]

theorem oddFences_singleton (line : List Char) : oddFences [line] = isFence line := by
  rw [oddFences, List.countP_singleton]
  cases isFence line <;> rfl

theorem oddFences_cons (line : List Char) (lines : List (List Char)) :
    oddFences (line :: lines) = (isFence line ^^ oddFences lines) := by
  rw [← List.singleton_append, oddFences_append, oddFences_singleton]

/-- The first pass pairs up fences, so it has one open after an odd number of them. -/
theorem isSome_openFence? : ∀ (n : Nat) (fence : Option Nat) (lines : List (List Char)),
    (openFence? n fence lines).isSome = (fence.isSome ^^ oddFences lines)
  | _, fence, [] => (Bool.xor_false _).symm
  | n, fence, line :: rest => by
      rw [openFence?, oddFences_cons]
      split
      · rename_i hfence
        rw [isSome_openFence? (n + 1), hfence]
        cases fence <;> simp
      · rename_i hfence
        rw [isSome_openFence? (n + 1), eq_false_of_ne_true hfence, Bool.false_xor]

/-! ## The second pass -/

/-- The mode of the second pass after lines, of which the first has the number `n`. -/
def modeAfter (n : Nat) (mode : Mode) : List (List Char) → Mode
  | [] => mode
  | line :: rest => modeAfter (n + 1) (mode.step n line).2 rest

/-- The flag of the second pass, which is down in a table. -/
def Mode.inCode : Mode → Bool
  | .text inCode => inCode
  | .header _ | .rows _ => false

/-- The second pass is below the header of a table. -/
def Mode.isHeader : Mode → Bool
  | .header _ => true
  | .text _ | .rows _ => false

theorem modeAfter_concat (n : Nat) (mode : Mode) (lines : List (List Char)) (line : List Char) :
    modeAfter n mode (lines ++ [line]) =
      ((modeAfter n mode lines).step (n + lines.length) line).2 := by
  induction lines generalizing n mode with
  | nil => rfl
  | cons l lines ih =>
    rw [List.cons_append, modeAfter, ih, modeAfter, List.length_cons, Nat.add_right_comm,
      Nat.add_assoc]

/-- A row of a table is no fence. -/
theorem isFence_eq_false_of_isTableRow (h : isTableRow line = true) : isFence line = false := by
  rw [← Bool.not_eq_true, isFence, startsWith_eq_true_iff]
  rintro ⟨rest, hrest⟩
  rw [isTableRow, ← hrest] at h
  cases h

/-- Outside of tables the flag follows the fences. -/
theorem inCode_afterText (inCode : Bool) (line : List Char) :
    (Mode.afterText inCode line).inCode = (inCode ^^ isFence line) := by
  rw [Mode.afterText]
  split
  · rename_i hfence
    rw [hfence]
    simp [Mode.inCode]
  · rename_i hfence
    rw [eq_false_of_ne_true hfence, Bool.xor_false]
    cases inCode
    · split <;> rfl
    · rfl

/-- **The flag follows every fence, except one below the header of a table.** -/
theorem inCode_step (n : Nat) (line : List Char) (mode : Mode) :
    (mode.step n line).2.inCode = (mode.inCode ^^ (isFence line && !mode.isHeader)) := by
  cases mode with
  | text inCode =>
    rw [Mode.step, inCode_afterText]
    simp [Mode.inCode, Mode.isHeader]
  | header columns =>
    have hdown : ((Mode.header columns).step n line).2.inCode = false := by
      rw [Mode.step]
      split
      · rfl
      · split <;> rfl
    rw [hdown]
    simp [Mode.inCode, Mode.isHeader]
  | rows columns =>
    rw [Mode.step]
    split
    · rw [inCode_afterText]
      simp [Mode.inCode, Mode.isHeader]
    · rename_i hrow
      rw [isFence_eq_false_of_isTableRow (by simpa using hrow)]
      rfl

/-- What the second pass finds, it finds at a line, in the mode after the lines before. -/
theorem mem_tableBreakages {b : Breakage} : ∀ {n : Nat} {mode : Mode} {lines : List (List Char)},
    b ∈ tableBreakages n mode lines → ∃ before line after, lines = before ++ line :: after ∧
      b ∈ ((modeAfter n mode before).step (n + before.length) line).1
  | _, _, [], h => absurd h List.not_mem_nil
  | n, mode, line :: rest, h => by
      rw [tableBreakages] at h
      rcases List.mem_append.mp h with h | h
      · exact ⟨[], line, rest, rfl, h⟩
      · obtain ⟨before, line', after, rfl, hb⟩ := mem_tableBreakages h
        refine ⟨line :: before, line', after, rfl, ?_⟩
        rw [modeAfter, List.length_cons, Nat.add_comm before.length, ← Nat.add_assoc]
        exact hb

/-- The second pass finds things at the line it looks at, with its flag down. -/
theorem mem_step {b : Breakage} (h : b ∈ (mode.step n line).1) :
    b.line = n ∧ mode.inCode = false := by
  cases mode with
  | text inCode => exact absurd h List.not_mem_nil
  | header columns =>
    rw [Mode.step] at h
    split at h
    · rw [List.mem_singleton.mp h]
      exact ⟨rfl, rfl⟩
    · split at h
      · exact absurd h List.not_mem_nil
      · rw [List.mem_singleton.mp h]
        exact ⟨rfl, rfl⟩
  | rows columns =>
    have hcomment : ∀ b ∈ (if hasComment line then [commentBreakage n] else []), b.line = n := by
      intro b hb
      split at hb
      · rw [List.mem_singleton.mp hb]
        rfl
      · exact absurd hb List.not_mem_nil
    refine ⟨?_, rfl⟩
    rw [Mode.step] at h
    split at h
    · exact hcomment b h
    · rcases List.mem_append.mp h with h | h
      · exact hcomment b h
      · split at h
        · exact absurd h List.not_mem_nil
        · rw [List.mem_singleton.mp h]

/-! ## Documents -/

/-- A fence stands below the header of a table, so that the second pass does not look at it as
a fence, and it is not the last line. -/
def HidesFence (lines : List (List Char)) : Prop :=
  ∃ before fence line after, lines = before ++ fence :: line :: after ∧
    isFence fence = true ∧ (modeAfter 1 (.text false) before).isHeader = true

/-- **The two passes agree on what is code.** -/
structure RespectsCode (file : Path) (content : String) : Prop where
  /-- At every line the flag says whether the number of fences before it is odd. -/
  tracks : ∀ before line after, terminatedLines content.toList = before ++ line :: after →
    (modeAfter 1 (.text false) before).inCode = oddFences before
  /-- Nothing but an open block is reported at a line inside of code. -/
  silent : ∀ i ∈ scanText file content, i.kind ≠ .unclosedCodeBlock →
    ¬ InsideCode (terminatedLines content.toList) i.line

/-- The flag follows all fences if none is hidden from it. -/
theorem inCode_modeAfter (hhidden : ¬ HidesFence lines) {before : List (List Char)} :
    ∀ {after : List (List Char)}, lines = before ++ line :: after →
      (modeAfter 1 (.text false) before).inCode = oddFences before := by
  induction before using List.reverseRecOn generalizing line with
  | nil =>
    intro after _
    rfl
  | append_singleton before last ih =>
    intro after hlines
    rw [List.append_assoc, List.singleton_append] at hlines
    have hlast : (isFence last && !(modeAfter 1 (.text false) before).isHeader) = isFence last := by
      cases hfence : isFence last with
      | false => rfl
      | true =>
        cases hheader : (modeAfter 1 (.text false) before).isHeader with
        | false => rfl
        | true => exact absurd ⟨before, last, line, after, hlines, hfence, hheader⟩ hhidden
    rw [modeAfter_concat, inCode_step, hlast, ih hlines, oddFences_append, oddFences_singleton]

/-- After a hidden fence the flag is wrong. -/
theorem inCode_modeAfter_concat_ne {before : List (List Char)} {fence : List Char}
    (hfence : isFence fence = true)
    (hheader : (modeAfter 1 (.text false) before).isHeader = true)
    (htracks : (modeAfter 1 (.text false) before).inCode = oddFences before) :
    (modeAfter 1 (.text false) (before ++ [fence])).inCode ≠ oddFences (before ++ [fence]) := by
  rw [modeAfter_concat, inCode_step, oddFences_append, oddFences_singleton, htracks, hfence,
    hheader]
  simp

/-- Whatever else `scanText` reports, it comes from the second pass. -/
theorem mem_scanText {file : Path} {content : String} {i : Issue} (hi : i ∈ scanText file content)
    (hkind : i.kind ≠ .unclosedCodeBlock) : ∃ b ∈ tableBreakages 1 (.text false)
      (terminatedLines content.toList), i = ⟨file, b.line, b.kind, b.message⟩ := by
  obtain ⟨b, hb, rfl⟩ := List.mem_map.mp hi
  rcases List.mem_append.mp hb with hb | hb
  · obtain ⟨n, -, rfl⟩ := List.mem_map.mp hb
    exact absurd rfl hkind
  · exact ⟨b, hb, rfl⟩

/-- As long as the flag is right, nothing is reported inside of code. -/
theorem not_insideCode {file : Path} {content : String}
    (htracks : ∀ before line after, terminatedLines content.toList = before ++ line :: after →
      (modeAfter 1 (.text false) before).inCode = oddFences before) :
    ∀ i ∈ scanText file content, i.kind ≠ .unclosedCodeBlock →
      ¬ InsideCode (terminatedLines content.toList) i.line := by
  intro i hi hkind ⟨before, line, after, hlines, hnumber, hopen, _⟩
  obtain ⟨b, hb, rfl⟩ := mem_scanText hi hkind
  obtain ⟨before', line', after', hlines', hb⟩ := mem_tableBreakages hb
  obtain ⟨hline, hdown⟩ := mem_step hb
  -- the issue is about the line after `before`, where the flag is down
  have hlength : before'.length = before.length := by
    have hnumber : b.line = before.length + 1 := hnumber
    omega
  obtain ⟨rfl, -⟩ := List.append_inj (hlines'.symm.trans hlines) hlength
  rw [htracks before' line' after' hlines'] at hdown
  rw [isSome_openFence?, hdown] at hopen
  cases hopen

/-- **The passes agree if and only if no fence is hidden.** -/
theorem respectsCode_iff (file : Path) (content : String) :
    RespectsCode file content ↔ ¬ HidesFence (terminatedLines content.toList) := by
  constructor
  · rintro ⟨htracks, -⟩ ⟨before, fence, line, after, hlines, hfence, hheader⟩
    refine inCode_modeAfter_concat_ne hfence hheader (htracks before fence _ hlines) ?_
    refine htracks (before ++ [fence]) line after ?_
    rw [hlines, List.append_assoc, List.singleton_append]
  · intro hhidden
    have htracks : ∀ before line after,
        terminatedLines content.toList = before ++ line :: after →
          (modeAfter 1 (.text false) before).inCode = oddFences before :=
      fun _ _ _ => inCode_modeAfter hhidden
    exact ⟨htracks, not_insideCode htracks⟩

/-- A table without separator, right above a code block that holds a line between pipes. -/
def crampedTable : String := "|a|\n\x60\x60\x60\n|b|\nc\n\x60\x60\x60"

/-- The line `c` stands inside of the block, and is judged as part of a table. -/
theorem reported_crampedTable : ∃ i ∈ scanText ⟨"t.md"⟩ crampedTable,
    i.kind = .missingTableSeparator ∧
      InsideCode (terminatedLines crampedTable.toList) i.line := by
  have hlines : terminatedLines crampedTable.toList =
      ["|a|".toList, List.replicate 3 '\x60', "|b|".toList] ++ "c".toList ::
        [List.replicate 3 '\x60'] := by
    decide +kernel
  have hissue : ⟨⟨"t.md"⟩, 4, .missingTableSeparator,
      "Table header not followed by separator row"⟩ ∈ scanText ⟨"t.md"⟩ crampedTable := by
    decide +kernel
  exact ⟨_, hissue, rfl, _, _, _, hlines, rfl, by decide +kernel, by decide +kernel⟩

/-- The two passes do not agree on every document. -/
theorem not_respectsCode : ¬ ∀ file content, RespectsCode file content := by
  intro h
  obtain ⟨i, hi, hkind, hinside⟩ := reported_crampedTable
  refine (h ⟨"t.md"⟩ crampedTable).silent i hi ?_ hinside
  rw [hkind]
  exact nofun

end SkillLint.Markdown
