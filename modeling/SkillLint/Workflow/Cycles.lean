/-!
# Cycles of dependencies

A `DependencyGraph` lists names with the names that they depend on.  A name that is
listed twice means its last entry, and a name that is not listed is no part of the graph.

`findCycles` searches the graph in depth from every entry that is still white.  An entry
is gray while it is being searched, and the gray entries are those on the `path` of the
search; afterwards it is black.  An edge back to a gray entry closes a cycle.  An entry
that has closed a cycle is not searched any further, so a loop is reported once.
-/

namespace SkillLint

/-- Names with what they depend on. -/
abbrev DependencyGraph := List (String × List String)

namespace DependencyGraph

/-- How far an entry has been searched. -/
inductive Color where
  | white
  | gray
  | black
  deriving Repr, DecidableEq

/-- The entry that a name means. -/
def indexOf? (g : DependencyGraph) (name : String) : Option Nat :=
  (g.zipIdx.reverse.find? fun entry => entry.1.1 == name).map Prod.snd

/-- The name of an entry. -/
def nameOf (g : DependencyGraph) (i : Nat) : String := (g[i]?.map Prod.fst).getD ""

/-- The entries that an entry depends on, in their order. -/
def targetsOf (g : DependencyGraph) (i : Nat) : List Nat :=
  ((g[i]?.map Prod.snd).getD []).filterMap g.indexOf?

/-- A search under way. -/
structure Search where
  colors : List Color
  /-- The entries being searched, the innermost first. -/
  path : List Nat
  /-- The cycles found, in the order of discovery. -/
  cycles : List (List String)
  deriving Repr, DecidableEq

namespace Search

/-- Before the search of a graph. -/
def start (g : DependencyGraph) : Search := ⟨List.replicate g.length .white, [], []⟩

/-- The color of an entry. -/
def color (s : Search) (i : Nat) : Color := s.colors[i]?.getD .black

/-- The entry is being searched from here on. -/
def enter (s : Search) (i : Nat) : Search :=
  { s with colors := s.colors.set i .gray, path := i :: s.path }

/-- The search of the entry is over. -/
def leave (s : Search) (i : Nat) : Search :=
  { s with colors := s.colors.set i .black, path := s.path.drop 1 }

/-- The edge from the innermost entry back to `target` closes a cycle. -/
def close (s : Search) (g : DependencyGraph) (target : Nat) : Search :=
  if s.path.contains target then
    let inner := (s.path.takeWhile (· ≠ target)).reverse
    { s with cycles := s.cycles ++ [(target :: inner ++ [target]).map g.nameOf] }
  else s

/-- Follows edges in their order, up to one that closes a cycle.  `visit` searches a white
entry. -/
def follow (g : DependencyGraph) (visit : Nat → Search → Search) : List Nat → Search → Search
  | [], s => s
  | target :: rest, s =>
    match s.color target with
    | .gray => s.close g target
    | .white => follow g visit rest (visit target s)
    | .black => follow g visit rest s

/-- Searches an entry, with at most `depth` entries inside one another. -/
def visit (g : DependencyGraph) : Nat → Nat → Search → Search
  | 0, _, s => s
  | depth + 1, i, s => (follow g (visit g depth) (g.targetsOf i) (s.enter i)).leave i

end Search

/-- The cycles of a graph, each from a name back to that name.  Every entry inside
another one was white, so no more entries lie inside one another than there are. -/
def findCycles (g : DependencyGraph) : List (List String) :=
  let search := (List.range g.length).foldl
    (fun s i => if s.color i = .white then Search.visit g g.length i s else s) (Search.start g)
  search.cycles

end DependencyGraph

end SkillLint
