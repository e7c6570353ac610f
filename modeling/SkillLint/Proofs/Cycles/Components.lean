import SkillLint.Proofs.Cycles.Loops

/-!
# No component with a cycle is missed

An entry that closes a cycle gives up its remaining edges and is then black like any other, so
black alone does not mean that everything behind an entry has been seen.  But an entry closes
cycles in its own component only (`Component`): the gray target reaches it along the path, and it
leads back to the target.

Take a component in which entries depend on themselves, and suppose that no cycle in it is found.
Then **none of its entries ever gets black** (`Follows.not_black_of_unreported`): an entry of it
never closes a cycle, so when it is left all its targets are black, and one of them is in the
component again.  At the end of the search every entry is black, so there is no such component
(`exists_loop_in_component`).  Hence every name that depends on itself has a cycle of its component
reported, and nothing is reported if and only if there is no such name
(`exists_mem_findCycles_of_cyclic`).
-/

namespace SkillLint.DependencyGraph

open Relation

variable {g : DependencyGraph} {v i j first : Nat} {inner : List Nat}

/-- The entry `i` is mutually reachable with the entry `v`. -/
def Component (g : DependencyGraph) (v i : Nat) : Prop :=
  ReflTransGen g.Edge v i ∧ ReflTransGen g.Edge i v

/-- A loop through an entry of a component stays in it. -/
theorem IsLoop.component (h : g.IsLoop first inner) (hi : i ∈ first :: inner)
    (hcomponent : g.Component v i) : ∀ j ∈ first :: inner, g.Component v j := by
  intro j hj
  exact ⟨hcomponent.1.trans (h.reaches hi hj).to_reflTransGen,
    (h.reaches hj hi).to_reflTransGen.trans hcomponent.2⟩

/-- If `v` depends on itself, every entry of its component has a target in the component. -/
theorem Component.exists_edge (hv : TransGen g.Edge v v) (hi : g.Component v i) :
    ∃ j, g.Edge i j ∧ g.Component v j := by
  obtain ⟨j, hedge, hback⟩ := TransGen.head'_iff.mp (TransGen.trans_right hi.2 hv)
  exact ⟨j, hedge, hi.1.tail hedge, hback⟩

/-- The cycle goes around a loop in the component of `v`. -/
def ReportsOn (g : DependencyGraph) (v : Nat) (c : List String) : Prop :=
  ∃ first inner, c = g.around first inner ∧ g.IsLoop first inner ∧
    ∀ i ∈ first :: inner, g.Component v i

namespace Search

variable {s s' : Search} {ts : List Nat}

/-- **If no cycle of a component with cycles is found, none of its entries gets black**, and an
entry of it has all its targets followed. -/
theorem Follows.not_black_of_unreported (h : Follows g ts s s') (hv : TransGen g.Edge v v)
    (hd : s.Disciplined g) (hlead : s.Leads g ts) (hnone : ∀ c ∈ s'.cycles, ¬ g.ReportsOn v c)
    (hs : ∀ i, g.Component v i → s.color i ≠ .black) :
    (∀ i, g.Component v i → s'.color i ≠ .black) ∧
      ((∀ i ∈ s.path.head?, g.Component v i) → ∀ t ∈ ts, s'.color t = .black) := by
  induction h with
  | done s => exact ⟨hs, fun _ t ht => absurd ht List.not_mem_nil⟩
  | @closes t rest s hgray =>
    refine ⟨fun i hi => by rw [color_close]; exact hs i hi, fun hhead => ?_⟩
    -- the innermost entry would be on a loop of its component
    obtain ⟨inner, hloop, hstands, hcycles⟩ := hd.exists_loop hgray hlead.head
    have hpath : s.path ≠ [] := List.ne_nil_of_mem ((hd.gray_iff t).mp hgray)
    have hu : s.path.head hpath ∈ s.path.head? := List.head?_eq_some_head hpath
    have hinnermost : s.path.head hpath ∈ t :: inner :=
      List.mem_of_getLast? ((getLast?_eq_head?_path hstands).trans hu)
    have hreport : g.ReportsOn v (g.around t inner) :=
      ⟨t, inner, rfl, hloop, hloop.component hinnermost (hhead _ hu)⟩
    exact absurd hreport (hnone _ (by rw [hcycles]; simp))
  | @passes t rest s s' hblack hrest ih =>
    obtain ⟨hs', hts⟩ := ih hd hlead.tail hnone hs
    refine ⟨hs', fun hhead => List.forall_mem_cons.mpr ⟨?_, hts hhead⟩⟩
    rw [hrest.color_of_ne_white (by rw [hblack]; decide), hblack]
  | @enters t rest s inner s' hwhite hinner hrest ihinner ihrest =>
    obtain ⟨henter, hdleft, hlead', hpleft⟩ := hd.through hlead hwhite hinner
    have hsenter : ∀ i, g.Component v i → (s.enter t).color i ≠ .black := by
      intro i hi
      by_cases he : i = t
      · subst he
        rw [color_enter_self (hs i hi)]
        decide
      · rw [color_enter_of_ne he]
        exact hs i hi
    obtain ⟨hsinner, htargets⟩ := ihinner henter leads_enter
      (fun c hc => hnone c (hrest.cycles_prefix.subset hc)) hsenter
    -- so the entry is not in the component: it would have a target in it, and that is black
    have hout : ¬ g.Component v t := by
      intro ht
      obtain ⟨j, hedge, hj⟩ := ht.exists_edge hv
      refine hsinner j hj (htargets (fun i hi => ?_) j hedge)
      cases hi
      exact ht
    have hsleft : ∀ i, g.Component v i → (inner.leave t).color i ≠ .black := by
      intro i hi
      have hne : i ≠ t := fun he => hout (he ▸ hi)
      rw [color_leave_of_ne hne]
      exact hsinner i hi
    obtain ⟨hs', hts⟩ := ihrest hdleft hlead' hnone hsleft
    refine ⟨hs', fun hhead => List.forall_mem_cons.mpr ⟨?_, hts (hpleft ▸ hhead)⟩⟩
    rw [hrest.color_of_ne_white (by rw [color_leave_self]; decide), color_leave_self]

end Search

/-- **An entry that depends on itself has a loop of its component found.** -/
theorem exists_loop_in_component (hv : TransGen g.Edge v v) :
    ∃ c ∈ g.findCycles, g.ReportsOn v c := by
  obtain ⟨s, hfollows, hcycles⟩ := g.exists_follows_findCycles
  rw [hcycles]
  by_contra hnone
  have hnone : ∀ c ∈ s.cycles, ¬ g.ReportsOn v c := fun c hc hreport => hnone ⟨c, hc, hreport⟩
  have hlength : ∀ i, g.Component v i → i < g.length := by
    intro i hi
    obtain ⟨j, hedge, -⟩ := hi.exists_edge hv
    exact hedge.lt_length
  have hstart : ∀ i, g.Component v i → (Search.start g).color i ≠ .black := by
    intro i hi
    simp [Search.color, Search.start, hlength i hi]
  have hpath : (Search.start g).path = [] := rfl
  obtain ⟨hwhite, hblack⟩ := hfollows.not_black_of_unreported hv (Search.disciplined_start g)
    (Search.leads_of_path_nil hpath _) hnone hstart
  have hself : g.Component v v := ⟨.refl, .refl⟩
  have hall := hblack (fun i hi => absurd hi (by rw [hpath]; exact Option.not_mem_none i))
  exact hwhite v hself (hall v (List.mem_range.mpr (hlength v hself)))

/-- **The search finds no cycle if and only if there is none.** -/
theorem findCycles_eq_nil_iff (g : DependencyGraph) : g.findCycles = [] ↔ g.Acyclic := by
  constructor
  · intro hnone v hcycle
    obtain ⟨c, hc, -⟩ := exists_loop_in_component hcycle
    rw [hnone] at hc
    cases hc
  · intro hg
    refine List.eq_nil_iff_forall_not_mem.mpr fun c hc => ?_
    obtain ⟨first, inner, hloop, -⟩ := loop_of_mem_findCycles hc
    exact hg first (hloop.reaches List.mem_cons_self List.mem_cons_self)

/-- The names around a loop are mutually reachable with the name of an entry that the loop is
mutually reachable with. -/
theorem ReportsOn.mutual {c : List String} (hreport : g.ReportsOn v c) {name : String}
    (hv : g.indexOf? name = some v) :
    ∀ a ∈ c, ReflTransGen g.Links name a ∧ ReflTransGen g.Links a name := by
  obtain ⟨first, inner, rfl, hloop, hcomponent⟩ := hreport
  obtain rfl := nameOf_of_indexOf? hv
  intro a ha
  obtain ⟨i, hi, rfl⟩ := List.mem_map.mp ha
  have hmem := mem_of_mem_closed hi
  obtain ⟨hforth, hback⟩ := hcomponent i hmem
  exact ⟨reflTransGen_links_of_edge hforth hv,
    reflTransGen_links_of_edge hback (hloop.indexOf?_nameOf hmem)⟩

/-- **No component with a cycle is missed.**  For every name that depends on itself some cycle is
found that runs through names mutually reachable with it, and nothing is found if and only if there
is no such name. -/
theorem exists_mem_findCycles_of_cyclic (g : DependencyGraph) :
    (∀ v, TransGen g.Links v v → ∃ c ∈ g.findCycles, c ≠ [] ∧
      ∀ a ∈ c, ReflTransGen g.Links v a ∧ ReflTransGen g.Links a v) ∧
    (g.findCycles = [] ↔ ∀ v, ¬ TransGen g.Links v v) := by
  refine ⟨fun v hcycle => ?_, (findCycles_eq_nil_iff g).trans acyclic_iff_links⟩
  obtain ⟨_, hlink, -⟩ := TransGen.head'_iff.mp hcycle
  obtain ⟨i, hi⟩ := hlink.exists_indexOf?
  obtain ⟨c, hc, hreport⟩ := exists_loop_in_component (transGen_edge_of_links hcycle hi hi)
  have hne : c ≠ [] := by
    obtain ⟨first, inner, rfl, -⟩ := hreport
    exact List.cons_ne_nil _ _
  exact ⟨c, hc, hne, hreport.mutual hi⟩

/-- A name on no cycle that is found: the search gave up the edge back to it. -/
theorem exists_mem_findCycles_revisedGraph :
    TransGen revisedGraph.Links "plan" "plan" ∧
      revisedGraph.findCycles = [["draft", "review", "draft"]] ∧
      ∃ c ∈ revisedGraph.findCycles, c ≠ [] ∧ ∀ a ∈ c,
        ReflTransGen revisedGraph.Links "plan" a ∧ ReflTransGen revisedGraph.Links a "plan" := by
  have hforth : revisedGraph.Links "plan" "review" := by decide
  have hback : revisedGraph.Links "review" "plan" := by decide
  have hcycle : TransGen revisedGraph.Links "plan" "plan" := .tail (.single hforth) hback
  exact ⟨hcycle, by decide, (exists_mem_findCycles_of_cyclic revisedGraph).1 "plan" hcycle⟩

end SkillLint.DependencyGraph
