import SkillLint.Header.Value
import SkillLint.Text.Search

/-!
# Documents with a header

A skill document starts with a header between two delimiters of three hyphens, and
the rest is its body.  `split` cuts a document at its first two delimiters, wherever
they stand: the first has to be at the very start, and the second is the next
occurrence of three hyphens.
-/

namespace SkillLint.Header

open SkillLint.Text

/-- What encloses a header. -/
def delimiter : String := "---"

/-- Why a text cannot be cut into header and body. -/
inductive SplitError where
  | noOpeningDelimiter
  | noClosingDelimiter
  deriving Repr, DecidableEq

/-- A text cut into the part between the first two delimiters and the part after the
second. -/
structure Parts where
  header : String
  body : String
  deriving Repr, DecidableEq

/-- Cuts a document at its first two delimiters. -/
def split (content : String) : Except SplitError Parts :=
  match dropPrefix? delimiter.toList content.toList with
  | none => .error .noOpeningDelimiter
  | some rest =>
    match cutAt? delimiter.toList rest with
    | none => .error .noClosingDelimiter
    | some (header, body) => .ok ⟨String.ofList header, String.ofList body⟩

end SkillLint.Header
