import SkillLint.Markdown.Section
import SkillLint.Rule.Basic
import SkillLint.Text.Lines

/-!
# The order of sections

The sections of `Schema.sectionOrder` that a body has stand in that order.  Other sections
may stand anywhere.
-/

namespace SkillLint.Rule

open SkillLint.Text

/-- The place of a title in the order of sections. -/
def sectionRank? (title : String) : Option Nat :=
  Schema.sectionOrder.findIdx? (· == title)

/-- The known sections of a body with their ranks, in the order of the body. -/
def knownSections (body : String) : List (Nat × String) :=
  (Markdown.titles false (splitLines body.toList)).filterMap fun title =>
    (sectionRank? (String.ofList title)).map fun rank => (rank, String.ofList title)

/-- The first two neighbours of which the first has the greater rank. -/
def firstInversion? : List (Nat × String) → Option (String × String)
  | a :: b :: rest => if a.1 > b.1 then some (a.2, b.2) else firstInversion? (b :: rest)
  | _ => none

/-- The known sections stand in their order. -/
def sectionOrder : Rule :=
  onDocument "section-order" fun _ _ doc =>
    match firstInversion? (knownSections doc.body) with
    | none => []
    | some (current, next) =>
      [.warning ("Section order: '" ++ current ++ "' should come after '" ++ next ++ "'")]

end SkillLint.Rule
