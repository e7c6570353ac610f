import Mathlib.Data.List.Nodup
import SkillLint.Proofs.Cycles.Names

/-!
# Only loops are found

A loop (`IsLoop`) is a list of distinct entries, each depending on the next and the last on the
first.  Its entries all reach each other, so each of them is the one that its name means
(`IsLoop.indexOf?_nameOf`), and the loop can be read off its names.

When the search closes a cycle, the gray target lies on the path, and the path is a chain of
dependence without repetition: what stands on it from the target inwards is a loop through the
innermost entry (`Disciplined.exists_loop`).  By induction on the run nothing else is ever found
(`Follows.loop_of_mem`).  In names: **a cycle that is found begins and ends with the same name,
repeats no other, and every name in it is listed by the one before** (`simple_of_mem_findCycles`).
-/

namespace SkillLint.DependencyGraph

open Relation

variable {g : DependencyGraph} {first i j : Nat} {inner : List Nat}

/-! ## Loops -/

/-- Distinct entries, each depending on the next and the last on the first. -/
structure IsLoop (g : DependencyGraph) (first : Nat) (inner : List Nat) : Prop where
  nodup : (first :: inner).Nodup
  chain : (first :: inner ++ [first]).IsChain g.Edge

/-- The names of a loop, from the first entry back to it. -/
def around (g : DependencyGraph) (first : Nat) (inner : List Nat) : List String :=
  (first :: inner ++ [first]).map g.nameOf

/-- Coming back to the first entry adds none. -/
theorem mem_of_mem_closed (hi : i ∈ first :: inner ++ [first]) : i ∈ first :: inner := by
  rcases List.mem_append.mp hi with hi | hi
  · exact hi
  · exact List.mem_singleton.mp hi ▸ List.mem_cons_self

namespace IsLoop

/-- The entries of a loop depend on each other, directly or through others. -/
theorem reaches (h : g.IsLoop first inner) (hi : i ∈ first :: inner) (hj : j ∈ first :: inner) :
    TransGen g.Edge i j := by
  have hpairs : (first :: inner ++ [first]).Pairwise (TransGen g.Edge) :=
    (h.chain.imp fun _ _ => TransGen.single).pairwise
  have hback : TransGen g.Edge i first :=
    (List.pairwise_append.mp hpairs).2.2 i hi first List.mem_cons_self
  rcases List.mem_cons.mp hj with rfl | hj
  · exact hback
  · exact hback.trans ((List.pairwise_cons.mp hpairs).1 j (List.mem_append_left _ hj))

/-- An entry of a loop is the one that its name means. -/
theorem indexOf?_nameOf (h : g.IsLoop first inner) (hi : i ∈ first :: inner) :
    g.indexOf? (g.nameOf i) = some i := by
  obtain ⟨_, -, hedge⟩ := TransGen.tail'_iff.mp (h.reaches hi hi)
  exact hedge.indexOf?_target

/-- The entries of a loop have distinct names. -/
theorem nodup_names (h : g.IsLoop first inner) : ((first :: inner).map g.nameOf).Nodup := by
  refine List.Nodup.map_on (fun i hi j hj hname => ?_) h.nodup
  have hmeant := h.indexOf?_nameOf hi
  rw [hname, h.indexOf?_nameOf hj] at hmeant
  exact (Option.some.inj hmeant).symm

/-- Every name around a loop is linked to the next. -/
theorem chain_names (h : g.IsLoop first inner) : (g.around first inner).IsChain g.Links := by
  refine (List.isChain_map g.nameOf).mpr (h.chain.imp_of_mem_imp fun i _ hi _ hedge => ?_)
  exact hedge.links (h.indexOf?_nameOf (mem_of_mem_closed hi))

end IsLoop

/-! ## The search -/

namespace Search

variable {s s' : Search} {ts : List Nat} {t : Nat}

/-- A loop at the inner end of a path goes back to its first entry from the innermost one. -/
theorem getLast?_eq_head?_path {path : List Nat} (h : (first :: inner).reverse <+: path) :
    (first :: inner).getLast? = path.head? := by
  obtain ⟨outer, rfl⟩ := h
  rw [List.head?_append, List.head?_reverse, List.getLast?_cons]
  rfl

/-- **Closing a cycle** adds the names of a loop: what stands on the path from the target
inwards. -/
theorem Disciplined.exists_loop (hd : s.Disciplined g) (hgray : s.color t = .gray)
    (hlead : ∀ i ∈ s.path.head?, g.Edge i t) :
    ∃ inner, g.IsLoop t inner ∧ (t :: inner).reverse <+: s.path ∧
      (s.close g t).cycles = s.cycles ++ [g.around t inner] := by
  have hmem : t ∈ s.path := (hd.gray_iff t).mp hgray
  obtain ⟨before, after, hpath, hnot⟩ := List.eq_append_cons_of_mem hmem
  have hcut : s.path.takeWhile (· ≠ t) = before := by
    have hbefore : ∀ i ∈ before, decide (i ≠ t) = true := by
      intro i hi
      exact decide_eq_true fun he : i = t => hnot (he ▸ hi)
    rw [hpath, List.takeWhile_append_of_pos hbefore, List.takeWhile_cons_of_neg (by simp),
      List.append_nil]
  have hprefix : before ++ [t] <+: s.path := ⟨after, by rw [hpath]; simp⟩
  have hreverse : (before ++ [t]).reverse = t :: before.reverse := by simp
  have hstands : (t :: before.reverse).reverse <+: s.path := by
    rwa [← hreverse, List.reverse_reverse]
  refine ⟨before.reverse, ⟨?nodup, ?chain⟩, hstands, ?cycles⟩
  case nodup =>
    rw [← hreverse, List.nodup_reverse]
    exact hd.nodup.sublist hprefix.sublist
  case chain =>
    refine List.isChain_append.mpr ⟨?_, List.isChain_singleton t, ?_⟩
    · rw [← hreverse, List.isChain_reverse]
      exact hd.chain.prefix hprefix
    · rintro i hi _ ⟨⟩
      exact hlead i (getLast?_eq_head?_path hstands ▸ hi)
  case cycles =>
    rw [Search.close, if_pos (List.contains_iff_mem.mpr hmem), hcut]
    rfl

/-- **Only loops are found.** -/
theorem Follows.loop_of_mem (h : Follows g ts s s') (hd : s.Disciplined g)
    (hlead : s.Leads g ts) {c : List String} (hc : c ∈ s'.cycles) :
    c ∈ s.cycles ∨ ∃ first inner, g.IsLoop first inner ∧ c = g.around first inner := by
  induction h with
  | done s => exact .inl hc
  | @closes t rest s hgray =>
    obtain ⟨inner, hloop, -, hcycles⟩ := hd.exists_loop hgray hlead.head
    rw [hcycles, List.mem_append, List.mem_singleton] at hc
    exact hc.imp_right fun hc => ⟨t, inner, hloop, hc⟩
  | passes _ _ ih => exact ih hd hlead.tail hc
  | @enters t rest s inner s' hwhite hinner _ ihinner ihrest =>
    obtain ⟨henter, hdleft, hlead', -⟩ := hd.through hlead hwhite hinner
    rcases ihrest hdleft hlead' hc with hc | hloop
    · exact ihinner henter leads_enter hc
    · exact .inr hloop

end Search

/-- What `findCycles` finds are loops. -/
theorem loop_of_mem_findCycles {c : List String} (hc : c ∈ g.findCycles) :
    ∃ first inner, g.IsLoop first inner ∧ c = g.around first inner := by
  obtain ⟨s, hfollows, hcycles⟩ := g.exists_follows_findCycles
  have hlead : (Search.start g).Leads g (List.range g.length) := Search.leads_of_path_nil rfl _
  exact (hfollows.loop_of_mem (Search.disciplined_start g) hlead (hcycles ▸ hc)).resolve_left
    List.not_mem_nil

/-- **What is found are simple cycles**: the first name is the last one, no other is repeated, and
every name is among the targets of the one before, in the last entry of that name. -/
theorem simple_of_mem_findCycles {c : List String} (hc : c ∈ g.findCycles) :
    2 ≤ c.length ∧ c.head? = c.getLast? ∧ c.dropLast.Nodup ∧
      c.IsChain fun a b => b ∈ g.targets a := by
  obtain ⟨first, inner, hloop, rfl⟩ := loop_of_mem_findCycles hc
  have hsplit : g.around first inner = (first :: inner).map g.nameOf ++ [g.nameOf first] := by
    simp [around]
  refine ⟨?length, ?closed, ?simple, hloop.chain_names.imp fun _ _ hlink => hlink.1⟩
  case length => simp [around]
  case closed =>
    rw [hsplit, List.getLast?_concat]
    rfl
  case simple =>
    rw [hsplit, List.dropLast_concat]
    exact hloop.nodup_names

/-- A graph with a revised entry: its first entry is not the one that its name means.  One of the
targets is no name of the graph. -/
def revisedGraph : DependencyGraph :=
  [("plan", ["draft"]), ("draft", ["review"]), ("review", ["print", "draft", "plan"]),
    ("plan", ["review"])]

theorem simple_of_mem_findCycles_revisedGraph :
    ["draft", "review", "draft"] ∈ revisedGraph.findCycles ∧ ["draft", "review"].Nodup ∧
      ["draft", "review", "draft"].IsChain fun a b => b ∈ revisedGraph.targets a := by
  have hmem : ["draft", "review", "draft"] ∈ revisedGraph.findCycles := by decide
  obtain ⟨-, -, hsimple, hchain⟩ := simple_of_mem_findCycles hmem
  exact ⟨hmem, hsimple, hchain⟩

end SkillLint.DependencyGraph
