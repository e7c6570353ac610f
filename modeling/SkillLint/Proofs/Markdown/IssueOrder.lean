import SkillLint.Proofs.Markdown.CodeBlocks

/-!
# The order of the issues of a scan

The second pass goes through the lines one by one, and whatever it finds at a line carries the
number of that line (`mem_step`).  At one line it finds at most one thing of a kind
(`pairwise_kind_step`).  So its findings come in the order of their lines, and two of them at one
line are of different kinds (`pairwise_tableBreakages`).

An open block is found by the first pass, and reported before everything else.  The fence that
opens it is the last one of the document (`exists_openFence?`).

**The issues of every scan are well-ordered** (`wellOrdered_scanText`): an open block comes first,
exactly after an odd number of fences, no issue lies outside of the document, and none is reported
twice.
-/

namespace SkillLint.Markdown

open SkillLint.Text

variable {n : Nat} {mode : Mode} {line : List Char} {lines : List (List Char)}

/-! ## The first pass -/

/-- The number is that of the last fence. -/
def IsLastFence (lines : List (List Char)) (n : Nat) : Prop :=
  ∃ before fence after, lines = before ++ fence :: after ∧ n = before.length + 1 ∧
    isFence fence = true ∧ ∀ line ∈ after, isFence line = false

/-- A fence that is open in the end was open before, and there are no fences, or it is the last
one. -/
theorem exists_openFence? {m : Nat} : ∀ {n : Nat} {fence : Option Nat} {lines : List (List Char)},
    openFence? n fence lines = some m →
      (fence = some m ∧ ∀ line ∈ lines, isFence line = false) ∨
        ∃ before last after, lines = before ++ last :: after ∧ m = n + before.length ∧
          isFence last = true ∧ ∀ line ∈ after, isFence line = false
  | _, _, [], h => .inl ⟨h, fun _ hline => absurd hline List.not_mem_nil⟩
  | n, fence, line :: rest, h => by
      rw [openFence?] at h
      -- a later fence is the last one in any case
      have later : (∃ before last after, rest = before ++ last :: after ∧
          m = n + 1 + before.length ∧ isFence last = true ∧
            ∀ line ∈ after, isFence line = false) →
          ∃ before last after, line :: rest = before ++ last :: after ∧ m = n + before.length ∧
            isFence last = true ∧ ∀ line ∈ after, isFence line = false := by
        rintro ⟨before, last, after, rfl, rfl, hlast, hafter⟩
        refine ⟨line :: before, last, after, rfl, ?_, hlast, hafter⟩
        rw [List.length_cons]
        omega
      split at h
      · rename_i hfence
        rcases exists_openFence? h with ⟨hopen, hrest⟩ | hlater
        · have hm : n = m := by
            cases fence with
            | none => exact Option.some.inj hopen
            | some _ => cases hopen
          exact .inr ⟨[], line, rest, rfl, hm.symm, hfence, hrest⟩
        · exact .inr (later hlater)
      · rename_i hfence
        rcases exists_openFence? h with ⟨hopen, hrest⟩ | hlater
        · exact .inl ⟨hopen, List.forall_mem_cons.mpr ⟨eq_false_of_ne_true hfence, hrest⟩⟩
        · exact .inr (later hlater)

theorem isLastFence_of_openFence? (h : openFence? 1 none lines = some n) :
    IsLastFence lines n := by
  rcases exists_openFence? h with ⟨hopen, -⟩ | ⟨before, last, after, hlines, hn, hlast, hafter⟩
  · cases hopen
  · exact ⟨before, last, after, hlines, by omega, hlast, hafter⟩

/-- The first pass finds one open block after an odd number of fences, at the last of them, and
otherwise nothing. -/
theorem fenceBreakages_cases (lines : List (List Char)) :
    (oddFences lines = false ∧ fenceBreakages lines = []) ∨
      ∃ b, oddFences lines = true ∧ fenceBreakages lines = [b] ∧ b.kind = .unclosedCodeBlock ∧
        IsLastFence lines b.line := by
  have hodd := isSome_openFence? 1 none lines
  rw [Option.isSome_none, Bool.false_xor] at hodd
  cases hopen : openFence? 1 none lines with
  | none => exact .inl ⟨by rw [← hodd, hopen]; rfl, by rw [fenceBreakages, hopen]; rfl⟩
  | some n =>
    exact .inr ⟨_, by rw [← hodd, hopen]; rfl, by rw [fenceBreakages, hopen]; rfl, rfl,
      isLastFence_of_openFence? hopen⟩

/-! ## The second pass -/

/-- **What the second pass finds at a line**: at most a comment, a missing separator and a row that
does not fit, in this order. -/
theorem kinds_step (n : Nat) (line : List Char) (mode : Mode) :
    ((mode.step n line).1.map Breakage.kind).Sublist
      [.htmlInTable, .missingTableSeparator, .columnCountMismatch] := by
  cases mode with
  | text inCode => exact List.nil_sublist _
  | header columns =>
    rw [Mode.step]
    split
    · show [IssueKind.htmlInTable].Sublist _
      decide
    · split
      · exact List.nil_sublist _
      · show [IssueKind.missingTableSeparator].Sublist _
        decide
  | rows columns =>
    have hcomment : ((if hasComment line then [commentBreakage n] else []).map
        Breakage.kind).Sublist [.htmlInTable] := by
      split
      · exact List.Sublist.refl _
      · exact List.nil_sublist _
    rw [Mode.step]
    split
    · exact hcomment.trans (by decide)
    · have hmisfit : ∀ message, ((if columnCount line = columns then []
          else [Breakage.mk n .columnCountMismatch message]).map Breakage.kind).Sublist
            [.columnCountMismatch] := by
        intro message
        split
        · exact List.nil_sublist _
        · exact List.Sublist.refl _
      rw [List.map_append]
      exact (hcomment.append (hmisfit _)).trans (by decide)

theorem pairwise_kind_step (n : Nat) (line : List Char) (mode : Mode) :
    (mode.step n line).1.Pairwise fun b c => b.kind ≠ c.kind :=
  List.pairwise_map.mp ((kinds_step n line mode).nodup (by decide))

/-- The second pass leaves open blocks to the first one. -/
theorem kind_ne_of_mem_step {b : Breakage} (h : b ∈ (mode.step n line).1) :
    b.kind ≠ .unclosedCodeBlock := by
  have hkind := (kinds_step n line mode).subset (List.mem_map_of_mem h)
  intro hopen
  rw [hopen] at hkind
  revert hkind
  decide

/-- What the second pass finds is of its own kinds, and at one of the lines. -/
theorem line_of_mem_tableBreakages {b : Breakage} (h : b ∈ tableBreakages n mode lines) :
    n ≤ b.line ∧ b.line < n + lines.length ∧ b.kind ≠ .unclosedCodeBlock := by
  obtain ⟨before, line, after, rfl, hb⟩ := mem_tableBreakages h
  rw [(mem_step hb).1, List.length_append, List.length_cons]
  exact ⟨by omega, by omega, kind_ne_of_mem_step hb⟩

/-- The breakage, as an issue of a file. -/
def Breakage.inFile (file : Path) (b : Breakage) : Issue := ⟨file, b.line, b.kind, b.message⟩

theorem scanText_eq (file : Path) (content : String) : scanText file content =
    (fenceBreakages (terminatedLines content.toList)).map (·.inFile file) ++
      (tableBreakages 1 (.text false) (terminatedLines content.toList)).map (·.inFile file) :=
  List.map_append

/-- The issue is at an earlier line than the other, or of another kind. -/
def Issue.Precedes (i j : Issue) : Prop := i.line < j.line ∨ i.line = j.line ∧ i.kind ≠ j.kind

theorem Issue.Precedes.line_le {i j : Issue} (h : i.Precedes j) : i.line ≤ j.line := by
  rcases h with h | h <;> omega

theorem Issue.Precedes.not_same {i j : Issue} (h : i.Precedes j) :
    ¬ (i.kind = j.kind ∧ i.line = j.line) := by
  rintro ⟨hkind, hline⟩
  rcases h with h | ⟨-, h⟩
  · omega
  · exact h hkind

/-- **The findings of the second pass come in the order of their lines**, and those at one line are
of different kinds. -/
theorem pairwise_tableBreakages (file : Path) :
    ∀ (n : Nat) (mode : Mode) (lines : List (List Char)),
      ((tableBreakages n mode lines).map (·.inFile file)).Pairwise Issue.Precedes
  | _, _, [] => List.Pairwise.nil
  | n, mode, line :: rest => by
      have hrest := pairwise_tableBreakages file (n + 1) (mode.step n line).2 rest
      rw [List.pairwise_map] at hrest ⊢
      refine List.pairwise_append.mpr ⟨?_, hrest, fun b hb c hc => .inl ?_⟩
      · refine (pairwise_kind_step n line mode).imp_of_mem fun hb hc hkind => .inr ⟨?_, hkind⟩
        exact (mem_step hb).1.trans (mem_step hc).1.symm
      · have hc := (line_of_mem_tableBreakages hc).1
        have hb := (mem_step hb).1
        show b.line < c.line
        omega

/-! ## Both passes -/

/-- **The issues are well-ordered**, for a document with these lines. -/
structure WellOrdered (lines : List (List Char)) (issues : List Issue) : Prop where
  /-- A block stays open after an odd number of fences. -/
  open_iff : (∃ i ∈ issues, i.kind = .unclosedCodeBlock) ↔ oddFences lines = true
  /-- Then it is the first issue, at the last fence, and no other issue is about an open block. -/
  open_first : oddFences lines = true → ∃ first rest, issues = first :: rest ∧
    first.kind = .unclosedCodeBlock ∧ IsLastFence lines first.line ∧
      ∀ i ∈ rest, i.kind ≠ .unclosedCodeBlock
  in_document : ∀ i ∈ issues, 1 ≤ i.line ∧ i.line ≤ lines.length
  ascending : (issues.filter (·.kind ≠ .unclosedCodeBlock)).Pairwise fun i j => i.line ≤ j.line
  distinct : issues.Pairwise fun i j => ¬ (i.kind = j.kind ∧ i.line = j.line)

section Assembly

variable {issues : List Issue} (hkinds : ∀ i ∈ issues, i.kind ≠ .unclosedCodeBlock)
  (hlines : ∀ i ∈ issues, 1 ≤ i.line ∧ i.line ≤ lines.length)
  (horder : issues.Pairwise Issue.Precedes)

include hkinds hlines horder

/-- Issues in order, none of them about an open block, are well-ordered after an even number of
fences. -/
theorem wellOrdered_of_even (hodd : oddFences lines = false) : WellOrdered lines issues where
  open_iff := by
    rw [hodd]
    exact ⟨fun ⟨i, hi, hkind⟩ => absurd hkind (hkinds i hi), nofun⟩
  open_first := by
    rw [hodd]
    exact nofun
  in_document := hlines
  ascending := (horder.filter _).imp Issue.Precedes.line_le
  distinct := horder.imp Issue.Precedes.not_same

/-- After an odd number of fences the open block goes in front of them. -/
theorem wellOrdered_cons {first : Issue} (hodd : oddFences lines = true)
    (hfirst : first.kind = .unclosedCodeBlock) (hlast : IsLastFence lines first.line) :
    WellOrdered lines (first :: issues) where
  open_iff := ⟨fun _ => hodd, fun _ => ⟨first, List.mem_cons_self, hfirst⟩⟩
  open_first _ := ⟨first, issues, rfl, hfirst, hlast, hkinds⟩
  in_document := by
    refine List.forall_mem_cons.mpr ⟨?_, hlines⟩
    obtain ⟨before, fence, after, rfl, hline, -⟩ := hlast
    rw [hline, List.length_append, List.length_cons]
    omega
  ascending := by
    rw [List.filter_cons_of_neg (by simpa using hfirst)]
    exact (horder.filter _).imp Issue.Precedes.line_le
  distinct := List.pairwise_cons.mpr
    ⟨fun i hi hsame => hkinds i hi (hsame.1.symm.trans hfirst),
      horder.imp Issue.Precedes.not_same⟩

end Assembly

/-- **The issues of every scan are well-ordered.** -/
theorem wellOrdered_scanText (file : Path) (content : String) :
    WellOrdered (terminatedLines content.toList) (scanText file content) := by
  have htables : ∀ i ∈ (tableBreakages 1 (.text false) (terminatedLines content.toList)).map
      (·.inFile file), (1 ≤ i.line ∧ i.line ≤ (terminatedLines content.toList).length) ∧
        i.kind ≠ .unclosedCodeBlock := by
    intro i hi
    obtain ⟨b, hb, rfl⟩ := List.mem_map.mp hi
    obtain ⟨hlow, hhigh, hkind⟩ := line_of_mem_tableBreakages hb
    exact ⟨⟨hlow, Nat.lt_succ_iff.mp (by rwa [Nat.add_comm] at hhigh)⟩, hkind⟩
  have horder := pairwise_tableBreakages file 1 (.text false) (terminatedLines content.toList)
  have hkinds := fun i hi => (htables i hi).2
  have hlines := fun i hi => (htables i hi).1
  rw [scanText_eq]
  rcases fenceBreakages_cases (terminatedLines content.toList) with
    ⟨heven, hnone⟩ | ⟨b, hodd, hone, hkind, hlast⟩
  · rw [hnone]
    exact wellOrdered_of_even hkinds hlines horder heven
  · rw [hone]
    exact wellOrdered_cons hkinds hlines horder hodd hkind hlast

end SkillLint.Markdown
