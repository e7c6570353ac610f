import SkillLint.Text.Search

/-!
# Paths

A `Path` is its text, kept exactly as written: messages show paths, and nothing in
this library normalises them.  What a path means to the rules is its list of
**components** (`components`): repeated slashes, a slash at the end and a dot inside
count for nothing, while a dot at the very start is a component of its own.

`join` extends a path by a text, and an absolute text replaces the path.  Parts of a
path (`fileName?`, `extension?`, `parent?`, `stripPrefix?`) and the order of paths
(`le`) are read off the components.
-/

namespace SkillLint

/-- A path in the file tree, as written. -/
structure Path where
  text : String
  deriving Repr, DecidableEq, Inhabited

namespace Path

/-- One step of a path. -/
inductive Component where
  /-- The top of the tree, where an absolute path starts. -/
  | root
  /-- The dot that a relative path may start with. -/
  | current
  /-- Two dots. -/
  | parent
  /-- An ordinary name. -/
  | normal (name : String)
  deriving Repr, DecidableEq

/-- The text between slashes; neighbouring slashes have an empty text between them. -/
def segments (p : Path) : List String := (p.text.toList.splitOn '/').map String.ofList

/-- The path starts at the top of the tree. -/
def isAbsolute (p : Path) : Bool := p.text.toList.head? == some '/'

/-- What a segment after the first contributes. -/
def Component.ofSegment? (segment : String) : Option Component :=
  if segment = "" ∨ segment = "." then none
  else if segment = ".." then some .parent
  else some (.normal segment)

/-- The steps of the path. -/
def components (p : Path) : List Component :=
  if p.isAbsolute then .root :: p.segments.filterMap Component.ofSegment?
  else
    match p.segments with
    | "." :: rest => .current :: rest.filterMap Component.ofSegment?
    | segments => segments.filterMap Component.ofSegment?

/-- The text of one step. -/
def Component.text : Component → String
  | .root => "/"
  | .current => "."
  | .parent => ".."
  | .normal name => name

/-- The steps written one after another with slashes between them. -/
def ofComponents : List Component → Path
  | .root :: rest => ⟨"/" ++ "/".intercalate (rest.map Component.text)⟩
  | steps => ⟨"/".intercalate (steps.map Component.text)⟩

/-- The path extended by `text`.  An absolute `text` replaces the path; otherwise a
slash is put between the two unless the path is empty or ends with one. -/
def join (p : Path) (text : String) : Path :=
  if text.toList.head? = some '/' then ⟨text⟩
  else if p.text.toList.getLast?.all (· = '/') then ⟨p.text ++ text⟩
  else ⟨p.text ++ "/" ++ text⟩

/-- The path without its last step; an empty path and the top of the tree have none. -/
def parent? (p : Path) : Option Path :=
  match p.components.getLast? with
  | none | some .root => none
  | some _ => some (ofComponents p.components.dropLast)

/-- The last step, if it is an ordinary name. -/
def fileName? (p : Path) : Option String :=
  match p.components.getLast? with
  | some (.normal name) => some name
  | _ => none

/-- What follows the last dot of a name.  A dot at the start of the name does not
begin an extension. -/
def extensionOf? (name : String) : Option String :=
  match name.toList.reverse.span (· ≠ '.') with
  | (after, '.' :: before) => if before.isEmpty then none else some (String.ofList after.reverse)
  | _ => none

/-- The extension of the file name. -/
def extension? (p : Path) : Option String := p.fileName?.bind extensionOf?

/-- The steps of `p` after those of `base`, if `p` starts with these. -/
def stripPrefix? (base p : Path) : Option (List Component) :=
  if base.components.isPrefixOf p.components then
    some (p.components.drop base.components.length)
  else none

/-- Kinds of steps in their order: the top, a dot, two dots, a name. -/
def Component.rank : Component → Nat
  | .root => 0
  | .current => 1
  | .parent => 2
  | .normal _ => 3

/-- Steps are ordered by kind, and names by their characters. -/
def Component.le : Component → Component → Bool
  | .normal a, .normal b => a ≤ b
  | a, b => a.rank ≤ b.rank

/-- Lists of steps are ordered by the first step in which they differ. -/
def componentsLe : List Component → List Component → Bool
  | [], _ => true
  | _ :: _, [] => false
  | a :: as, b :: bs => if a = b then componentsLe as bs else a.le b

/-- The order of paths: step by step. -/
def le (p q : Path) : Bool := componentsLe p.components q.components

/-- The paths in their order. -/
def sort (paths : List Path) : List Path := paths.mergeSort le

end Path

end SkillLint
