import Mathlib.Data.List.Perm.Subperm
import Mathlib.Data.List.Rotate
import SkillLint.Proofs.Cycles.Loops

/-!
# No loop is found twice

The **closer** of a cycle is the name from which it goes back to its first one.  In the search it is
the innermost entry when the cycle is found.  That entry gives up its remaining edges and is left
at once, so it is black from then on, while a later cycle runs through entries that are gray when it
is found.  Hence **the closer of a cycle is on no cycle that is found later**
(`Follows.pairwise_apart`), whatever was searched in between.

Two consequences are read off the names (`loops_found_once`).  Every name closes at most one
cycle, so there are no more cycles than entries.  And no cycle is a rotation of another: the
rotation of a cycle has the same names, its closer among them.
-/

namespace SkillLint.DependencyGraph

open Relation

variable {g : DependencyGraph} {i first : Nat} {inner : List Nat} {c d : List String}

/-- The name from which a cycle goes back to its first name. -/
def closer? (c : List String) : Option String := c.dropLast.getLast?

/-- The closer of the first cycle is not on the second. -/
def Apart (c d : List String) : Prop := ∀ name ∈ closer? c, name ∉ d

/-- The cycle goes around a loop, back to its first entry from the entry `i`. -/
def ClosedBy (g : DependencyGraph) (i : Nat) (c : List String) : Prop :=
  ∃ first inner, c = g.around first inner ∧ g.IsLoop first inner ∧
    (first :: inner).getLast? = some i

theorem closer?_around (g : DependencyGraph) (first : Nat) (inner : List Nat) :
    closer? (g.around first inner) = (first :: inner).getLast?.map g.nameOf := by
  rw [closer?, around, List.map_append, List.map_singleton, List.dropLast_concat, List.getLast?_map]

theorem ClosedBy.closer?_eq (h : g.ClosedBy i c) : closer? c = some (g.nameOf i) := by
  obtain ⟨first, inner, rfl, -, hlast⟩ := h
  rw [closer?_around, hlast]
  rfl

/-- The closer of a loop is a name of the graph. -/
theorem ClosedBy.name_mem (h : g.ClosedBy i c) : g.nameOf i ∈ g.map Prod.fst := by
  obtain ⟨first, inner, -, hloop, hlast⟩ := h
  exact exists_indexOf?_iff.mp ⟨i, hloop.indexOf?_nameOf (List.mem_of_getLast? hlast)⟩

/-- The closer of a cycle is one of its names. -/
theorem mem_of_closer? {name : String} (h : name ∈ closer? c) : name ∈ c.dropLast :=
  List.mem_of_getLast? h

/-- A loop that the closing entry of a cycle is not on is apart from the cycle, by name too. -/
theorem ClosedBy.apart (h : g.ClosedBy i c) (hloop : g.IsLoop first inner)
    (hi : i ∉ first :: inner) : Apart c (g.around first inner) := by
  intro name hname hmem
  rw [h.closer?_eq] at hname
  cases hname
  obtain ⟨j, hj, hsame⟩ := List.mem_map.mp hmem
  have hj := mem_of_mem_closed hj
  obtain ⟨first', inner', -, hloop', hlast⟩ := h
  have hmeant := hloop'.indexOf?_nameOf (List.mem_of_getLast? hlast)
  rw [← hsame, hloop.indexOf?_nameOf hj] at hmeant
  cases hmeant
  exact hi hj

namespace Search

variable {s s' : Search} {ts : List Nat}

/-- **The closer of a cycle is on no cycle that is found later.**  While edges are followed, only
the innermost entry may have closed a cycle without being black yet: it is about to be left. -/
theorem Follows.pairwise_apart (h : Follows g ts s s') (hd : s.Disciplined g)
    (hlead : s.Leads g ts) (hapart : s.cycles.Pairwise Apart)
    (hclosed : ∀ c ∈ s.cycles, ∃ i, g.ClosedBy i c ∧ s.color i = .black) :
    s'.cycles.Pairwise Apart ∧
      ∀ c ∈ s'.cycles, ∃ i, g.ClosedBy i c ∧ (s'.color i = .black ∨ i ∈ s.path.head?) := by
  induction h with
  | done s => exact ⟨hapart, fun c hc => (hclosed c hc).imp fun i hi => ⟨hi.1, .inl hi.2⟩⟩
  | @closes t rest s hgray =>
    obtain ⟨inner, hloop, hstands, hcycles⟩ := hd.exists_loop hgray hlead.head
    have hlast := getLast?_eq_head?_path hstands
    rw [hcycles]
    refine ⟨List.pairwise_append.mpr ⟨hapart, List.pairwise_singleton _ _, ?_⟩, fun c hc => ?_⟩
    · intro c hc d hd'
      obtain ⟨i, hi, hblack⟩ := hclosed c hc
      cases List.mem_singleton.mp hd'
      refine hi.apart hloop fun hmem => ?_
      -- the entries of the new loop are gray
      have hpath : i ∈ s.path := hstands.subset (List.mem_reverse.mpr hmem)
      rw [(hd.gray_iff i).mpr hpath] at hblack
      cases hblack
    · rcases List.mem_append.mp hc with hc | hc
      · obtain ⟨i, hi, hblack⟩ := hclosed c hc
        exact ⟨i, hi, .inl (color_close.trans hblack)⟩
      · cases List.mem_singleton.mp hc
        have hu := List.getLast?_eq_some_getLast (List.cons_ne_nil t inner)
        exact ⟨_, ⟨t, inner, rfl, hloop, hu⟩, .inr (hlast ▸ hu)⟩
  | passes _ _ ih => exact ih hd hlead.tail hapart hclosed
  | @enters t rest s inner s' hwhite hinner _ ihinner ihrest =>
    obtain ⟨henter, hdleft, hlead', hpleft⟩ := hd.through hlead hwhite hinner
    have hclosed' : ∀ c ∈ s.cycles, ∃ i, g.ClosedBy i c ∧ (s.enter t).color i = .black := by
      intro c hc
      obtain ⟨i, hi, hblack⟩ := hclosed c hc
      have hne : i ≠ t := fun he => by rw [he, hwhite] at hblack; cases hblack
      exact ⟨i, hi, by rw [color_enter_of_ne hne, hblack]⟩
    obtain ⟨hinnerApart, hinnerClosed⟩ := ihinner henter leads_enter hapart hclosed'
    rw [← hpleft]
    refine ihrest hdleft hlead' hinnerApart fun c hc => ?_
    -- leaving the entry makes it black, if it closed the cycle
    obtain ⟨i, hi, hblack⟩ := hinnerClosed c hc
    refine ⟨i, hi, ?_⟩
    by_cases he : i = t
    · rw [he, color_leave_self]
    · rw [color_leave_of_ne he]
      refine hblack.resolve_right fun hhead => he ?_
      cases hhead
      rfl

end Search

/-- The closer of a cycle that is found is on no later one. -/
theorem pairwise_apart_findCycles (g : DependencyGraph) : g.findCycles.Pairwise Apart ∧
    ∀ c ∈ g.findCycles, ∃ i, g.ClosedBy i c := by
  obtain ⟨s, hfollows, hcycles⟩ := g.exists_follows_findCycles
  obtain ⟨hapart, hclosed⟩ := hfollows.pairwise_apart (Search.disciplined_start g)
    (Search.leads_of_path_nil rfl _) List.Pairwise.nil fun c hc => absurd hc List.not_mem_nil
  rw [hcycles]
  exact ⟨hapart, fun c hc => (hclosed c hc).imp fun i hi => hi.1⟩

/-- **No loop is found twice.**  Every name closes at most one cycle, so there are no more cycles
than entries, and no cycle is a rotation of another. -/
theorem loops_found_once (g : DependencyGraph) :
    (g.findCycles.map closer?).Nodup ∧ g.findCycles.length ≤ g.length ∧
      g.findCycles.Pairwise fun c d => ¬ c.dropLast.IsRotated d.dropLast := by
  obtain ⟨hapart, hclosed⟩ := g.pairwise_apart_findCycles
  have hmem : ∀ c ∈ g.findCycles, ∃ name ∈ closer? c, name ∈ c ∧ name ∈ g.map Prod.fst := by
    intro c hc
    obtain ⟨i, hi⟩ := hclosed c hc
    have hcloser := hi.closer?_eq
    exact ⟨_, hcloser, List.dropLast_subset c (mem_of_closer? hcloser), hi.name_mem⟩
  have hdistinct : (g.findCycles.map closer?).Nodup := by
    refine List.pairwise_map.mpr (hapart.imp_of_mem fun {c d} hc hd h he => ?_)
    obtain ⟨name, hname, hon, -⟩ := hmem d hd
    exact h name (he ▸ hname) hon
  refine ⟨hdistinct, ?count, hapart.imp_of_mem fun {c d} hc _ h hrotated => ?rotated⟩
  case count =>
    have hnames : g.findCycles.map closer? ⊆ g.map fun e => some e.1 := by
      intro o ho
      obtain ⟨c, hc, rfl⟩ := List.mem_map.mp ho
      obtain ⟨name, hname, -, hentry⟩ := hmem c hc
      obtain ⟨e, he, rfl⟩ := List.mem_map.mp hentry
      exact List.mem_map.mpr ⟨e, he, hname.symm⟩
    have hlength := (hdistinct.subperm hnames).length_le
    rwa [List.length_map, List.length_map] at hlength
  case rotated =>
    obtain ⟨name, hname, -, -⟩ := hmem c hc
    have hon : name ∈ d.dropLast := hrotated.mem_iff.mp (mem_of_closer? hname)
    exact h name hname (List.dropLast_subset d hon)

end SkillLint.DependencyGraph
