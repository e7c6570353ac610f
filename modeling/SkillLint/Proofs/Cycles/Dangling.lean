import Mathlib.Data.List.Forall2
import SkillLint.Proofs.Cycles.Names

/-!
# Edges that lead nowhere

A target that is no name of the graph means no entry, and the search never sees it: of the targets
of an entry it follows those that mean something (`targetsOf`).  So the search of a graph reads no
more than the names and these edges, and graphs that agree in both are searched step by step in the
same way (`findCycles_congr`): the same entries are entered in the same order, and the same edges
close cycles.

In particular **targets that are not declared have no influence on the cycles found**, wherever
they stand in the lists of targets, and however many there are (`findCycles_of_dangling`).
-/

namespace SkillLint.DependencyGraph

variable {g g' : DependencyGraph} {ts us : List String}

/-- The second list is the first one with names inserted that are not declared. -/
inductive Inserted (names : List String) : List String → List String → Prop
  | nil : Inserted names [] []
  | keep {t : String} {ts us : List String} (h : Inserted names ts us) :
      Inserted names (t :: ts) (t :: us)
  | insert {t : String} {ts us : List String} (hundeclared : t ∉ names) (h : Inserted names ts us) :
      Inserted names ts (t :: us)

/-- **The second graph is the first one with dangling edges**: the entries have the same names in
the same order, and into their targets names are inserted that the graph does not declare. -/
def Dangling (g g' : DependencyGraph) : Prop :=
  List.Forall₂ (fun e e' => e.1 = e'.1 ∧ Inserted (g.map Prod.fst) e.2 e'.2) g g'

/-! ## What the search reads of a graph -/

namespace Search

theorem close_congr (hname : g.nameOf = g'.nameOf) (s : Search) (t : Nat) :
    s.close g t = s.close g' t := by
  rw [close, close, hname]

theorem follow_congr (hname : g.nameOf = g'.nameOf) (visit : Nat → Search → Search) :
    ∀ (ts : List Nat) (s : Search), follow g visit ts s = follow g' visit ts s
  | [], _ => rfl
  | t :: rest, s => by
      rw [follow, follow, close_congr hname]
      cases s.color t with
      | gray => rfl
      | white => exact follow_congr hname visit rest (visit t s)
      | black => exact follow_congr hname visit rest s

/-- **A visit goes the same way** in graphs with the same names and edges. -/
theorem visit_congr (hname : g.nameOf = g'.nameOf) (htargets : g.targetsOf = g'.targetsOf) :
    ∀ (depth i : Nat) (s : Search), visit g depth i s = visit g' depth i s
  | 0, _, _ => rfl
  | depth + 1, i, s => by
      -- all visits from within are visits of less depth
      have hinner : visit g depth = visit g' depth :=
        funext fun j => funext fun s => visit_congr hname htargets depth j s
      rw [visit, visit, htargets, hinner, follow_congr hname]

end Search

/-- **The search reads names and edges only.** -/
theorem findCycles_congr (hlength : g.length = g'.length) (hname : g.nameOf = g'.nameOf)
    (htargets : g.targetsOf = g'.targetsOf) : g.findCycles = g'.findCycles := by
  have hvisit : Search.visit g g.length = Search.visit g' g'.length := by
    funext i s
    rw [hlength, Search.visit_congr hname htargets]
  rw [findCycles, findCycles, hvisit, hlength, Search.start, Search.start, hlength]

/-! ## Dangling edges -/

theorem nameOf_eq (g : DependencyGraph) (i : Nat) :
    g.nameOf i = ((g.map Prod.fst)[i]?).getD "" := by
  rw [nameOf, List.getElem?_map]

theorem indexOf?_eq (g : DependencyGraph) (name : String) : g.indexOf? name =
    ((g.map Prod.fst).zipIdx.reverse.find? fun entry => entry.1 == name).map Prod.snd := by
  rw [indexOf?, List.zipIdx_map, ← List.map_reverse, List.find?_map, Option.map_map]
  rfl

/-- What a name means is a matter of the names. -/
theorem indexOf?_congr (hnames : g.map Prod.fst = g'.map Prod.fst) : g.indexOf? = g'.indexOf? := by
  funext name
  rw [indexOf?_eq, indexOf?_eq, hnames]

/-- A name that is not declared means nothing. -/
theorem indexOf?_eq_none {name : String} (h : name ∉ g.map Prod.fst) : g.indexOf? name = none :=
  Option.eq_none_iff_forall_ne_some.mpr fun i hi => h (exists_indexOf?_iff.mp ⟨i, hi⟩)

/-- Undeclared names add no edge. -/
theorem Inserted.filterMap_indexOf? (h : Inserted (g.map Prod.fst) ts us) :
    us.filterMap g.indexOf? = ts.filterMap g.indexOf? := by
  induction h with
  | nil => rfl
  | keep _ ih => rw [List.filterMap_cons, List.filterMap_cons, ih]
  | insert hundeclared _ ih => rw [List.filterMap_cons_none (indexOf?_eq_none hundeclared), ih]

theorem Dangling.names_eq (h : g.Dangling g') : g'.map Prod.fst = g.map Prod.fst := by
  have hsame : List.Forall₂ (· = ·) (g.map Prod.fst) (g'.map Prod.fst) := by
    rw [List.forall₂_map_left_iff, List.forall₂_map_right_iff]
    exact h.imp fun _ _ he => he.1
  rw [List.forall₂_eq_eq_eq] at hsame
  exact hsame.symm

theorem Dangling.targetsOf_eq (h : g.Dangling g') : g'.targetsOf = g.targetsOf := by
  funext i
  rw [targetsOf, targetsOf, indexOf?_congr h.names_eq]
  rcases Nat.lt_or_ge i g.length with hi | hi
  · have hi' : i < g'.length := h.length_eq ▸ hi
    have hentry := List.Forall₂.get h hi hi'
    rw [List.getElem?_eq_getElem hi, List.getElem?_eq_getElem hi']
    exact hentry.2.filterMap_indexOf?
  · rw [List.getElem?_eq_none hi, List.getElem?_eq_none (h.length_eq ▸ hi)]

/-- **Dangling edges have no influence on the cycles found.** -/
theorem findCycles_of_dangling (h : g.Dangling g') : g'.findCycles = g.findCycles := by
  refine findCycles_congr h.length_eq.symm (funext fun i => ?_) h.targetsOf_eq
  rw [nameOf_eq, nameOf_eq, h.names_eq]

end SkillLint.DependencyGraph
