import SkillLint.FileTree.Walk
import SkillLint.Markdown.Line
import SkillLint.RunError
import SkillLint.Text.Lines

/-!
# Scanning markdown

`scanText` finds the breakages of a document that a renderer passes over in silence: a
code block that is never closed, an HTML comment that interrupts a table, a table header
without separator, and a row with another number of columns than its header.

Two passes look at the lines.  The first pairs up fences (`openFence?`).  The second goes
through the lines with a mode (`Mode`): outside of tables, below a header, or among the
rows of a table.  A fence is looked at outside of tables only; the line below a header
is always taken for the separator, and the line that ends a table is looked at again
outside of it.

`scanPath` scans a file, or all markdown documents of a directory in the order of their
paths.
-/

namespace SkillLint.Markdown

open SkillLint.Text

/-- The kinds of breakages. -/
inductive IssueKind where
  | columnCountMismatch
  | htmlInTable
  | missingTableSeparator
  | unclosedCodeBlock
  deriving Repr, DecidableEq

namespace IssueKind

/-- All kinds, in the order in which they are reported. -/
def all : List IssueKind :=
  [.columnCountMismatch, .htmlInTable, .missingTableSeparator, .unclosedCodeBlock]

/-- The name of a kind. -/
def text : IssueKind → String
  | columnCountMismatch => "column-count-mismatch"
  | htmlInTable => "html-in-table"
  | missingTableSeparator => "missing-table-separator"
  | unclosedCodeBlock => "unclosed-code-block"

/-- The name of a kind in capitals. -/
def title : IssueKind → String
  | columnCountMismatch => "COLUMN-COUNT-MISMATCH"
  | htmlInTable => "HTML-IN-TABLE"
  | missingTableSeparator => "MISSING-TABLE-SEPARATOR"
  | unclosedCodeBlock => "UNCLOSED-CODE-BLOCK"

end IssueKind

/-- A breakage at a line, counted from one, without its file. -/
structure Breakage where
  line : Nat
  kind : IssueKind
  message : String
  deriving Repr, DecidableEq

/-- A breakage in a file. -/
structure Issue where
  file : Path
  line : Nat
  kind : IssueKind
  message : String
  deriving Repr, DecidableEq

/-! ## Fences -/

/-- The line of the fence that stays open.  The first argument is the number of the next
line, the second the fence that is open before it. -/
def openFence? : Nat → Option Nat → List (List Char) → Option Nat
  | _, fence, [] => fence
  | n, fence, line :: rest =>
    if isFence line then openFence? (n + 1) (if fence.isSome then none else some n) rest
    else openFence? (n + 1) fence rest

/-- The breakage of a code block that stays open. -/
def fenceBreakages (lines : List (List Char)) : List Breakage :=
  (openFence? 1 none lines).toList.map fun n =>
    ⟨n, .unclosedCodeBlock, "Code block opened at line " ++ toString n ++ " is never closed"⟩

/-! ## Tables -/

/-- Where the second pass is. -/
inductive Mode where
  /-- Outside of tables, inside a code block or not. -/
  | text (inCode : Bool)
  /-- Below the header of a table with so many columns. -/
  | header (columns : Nat)
  /-- Among the rows of a table with so many columns. -/
  | rows (columns : Nat)
  deriving Repr, DecidableEq

/-- The mode after a line outside of tables. -/
def Mode.afterText (inCode : Bool) (line : List Char) : Mode :=
  if isFence line then .text !inCode
  else if !inCode && isTableRow line then .header (columnCount line)
  else .text inCode

/-- The breakage of a comment inside a table. -/
def commentBreakage (n : Nat) : Breakage :=
  ⟨n, .htmlInTable, "HTML comment interrupts table structure"⟩

/-- The breakages of a line, and the mode after it; the line has the number `n`. -/
def Mode.step (n : Nat) (line : List Char) : Mode → List Breakage × Mode
  | .text inCode => ([], Mode.afterText inCode line)
  | .header columns =>
    if hasComment line then ([commentBreakage n], .text false)
    else if isSeparatorRow line then ([], .rows columns)
    else
      ([⟨n, .missingTableSeparator, "Table header not followed by separator row"⟩], .text false)
  | .rows columns =>
    let comment := if hasComment line then [commentBreakage n] else []
    if !isTableRow line then (comment, Mode.afterText false line)
    else
      let found := columnCount line
      (comment ++
        (if found = columns then []
        else
          [⟨n, .columnCountMismatch,
            "Expected " ++ toString columns ++ " columns, got " ++ toString found⟩]),
        .rows columns)

/-- The breakages of tables in lines from number `n` on. -/
def tableBreakages : Nat → Mode → List (List Char) → List Breakage
  | _, _, [] => []
  | n, mode, line :: rest =>
    let (found, mode) := mode.step n line
    found ++ tableBreakages (n + 1) mode rest

/-! ## Documents -/

/-- The breakages of a text: an open code block first, then those of tables. -/
def breakages (content : String) : List Breakage :=
  let lines := terminatedLines content.toList
  fenceBreakages lines ++ tableBreakages 1 (.text false) lines

/-- The breakages of a text, as issues of a file. -/
def scanText (file : Path) (content : String) : List Issue :=
  (breakages content).map fun b => ⟨file, b.line, b.kind, b.message⟩

/-- Scans a file, or every markdown document at or below a directory; there, documents
that cannot be read are passed over. -/
def scanPath (tree : FileTree) (p : Path) : Except RunError (List Issue) :=
  if !tree.pathExists p then .error (.pathNotFound p)
  else if tree.isFile p then
    match tree.readText p with
    | .ok content => .ok (scanText p content)
    | .error reason => .error (.io reason.message)
  else
    .ok ((tree.filesWithExtension p "md").flatMap fun file =>
      match tree.readText file with
      | .ok content => scanText file content
      | .error _ => [])

end SkillLint.Markdown
