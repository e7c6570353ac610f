import SkillLint.Proofs.Cycles.Discipline

/-!
# Graphs in names

A graph is written in names, and the search runs over entries.  A name means its last entry
(`indexOf?_eq_some_iff`), so `targets` looks a name up from the end, and `Links` is the dependence
between names: what is listed there, as far as it is a name of the graph at all.

An entry that something depends on is always the one that its name means
(`Edge.indexOf?_target`).  The earlier entries of a repeated name are therefore the beginning of a
chain at most.  **Chains of entries and chains of names are the same** from entries that are meant
by their names (`reflTransGen_links_of_edge`, `transGen_edge_of_links`), and in particular a graph
is acyclic in entries exactly if it is acyclic in names (`acyclic_iff_links`).
-/

namespace SkillLint.DependencyGraph

open Relation

variable {g : DependencyGraph} {a b name : String} {i j : Nat}

/-- What the last entry of a name lists. -/
def targets (g : DependencyGraph) (a : String) : List String := (g.reverse.lookup a).getD []

/-- The name `a` depends on the name `b`: the last entry of `a` lists `b`, and `b` is a name of
the graph. -/
def Links (g : DependencyGraph) (a b : String) : Prop := b ∈ g.targets a ∧ b ∈ g.map Prod.fst

instance : Decidable (g.Links a b) :=
  inferInstanceAs (Decidable (b ∈ g.targets a ∧ b ∈ g.map Prod.fst))

/-! ## The entry that a name means -/

theorem indexOf?_concat (g : DependencyGraph) (e : String × List String) (name : String) :
    indexOf? (g ++ [e]) name = if e.1 = name then some g.length else g.indexOf? name := by
  by_cases h : e.1 = name <;> simp [indexOf?, List.zipIdx_append, h]

theorem targets_concat (g : DependencyGraph) (e : String × List String) (name : String) :
    targets (g ++ [e]) name = if e.1 = name then e.2 else g.targets name := by
  obtain ⟨c, ts⟩ := e
  by_cases h : c = name
  · simp [targets, h]
  · simp [targets, List.lookup_cons, beq_false_of_ne (Ne.symm h), h]

/-- A name means its last entry. -/
theorem indexOf?_eq_some_iff : g.indexOf? name = some i ↔
    (∃ targets, g[i]? = some (name, targets)) ∧
      ∀ j, i < j → ∀ targets, g[j]? ≠ some (name, targets) := by
  induction g using List.reverseRecOn with
  | nil => simp [indexOf?]
  | append_singleton g e ih =>
    obtain ⟨a, ts⟩ := e
    rw [indexOf?_concat]
    by_cases ha : a = name
    · subst ha
      rw [if_pos rfl]
      constructor
      · rintro ⟨⟩
        refine ⟨⟨ts, by simp⟩, fun j hj targets hc => ?_⟩
        rw [List.getElem?_eq_none (by simp; omega)] at hc
        cases hc
      · rintro ⟨⟨targets, hi⟩, hlast⟩
        have hle := (List.getElem?_eq_some_iff.mp hi).1
        have hge : ¬ i < g.length := fun hlt => hlast g.length hlt ts (by simp)
        rw [List.length_append, List.length_singleton] at hle
        exact congrArg some (by omega)
    · have hget : ∀ (j : Nat) (targets : List String), (g ++ [(a, ts)])[j]? = some (name, targets) ↔
          g[j]? = some (name, targets) := by
        intro j targets
        rcases Nat.lt_trichotomy j g.length with hj | rfl | hj
        · rw [List.getElem?_append_left hj]
        · simp [ha]
        · rw [List.getElem?_eq_none (by simp; omega), List.getElem?_eq_none (by omega)]
      rw [if_neg ha, ih]
      simp only [hget, ne_eq]

/-- Every name of the graph means an entry. -/
theorem exists_indexOf?_iff : (∃ i, g.indexOf? name = some i) ↔ name ∈ g.map Prod.fst := by
  induction g using List.reverseRecOn with
  | nil => simp [indexOf?]
  | append_singleton g e ih =>
    rw [indexOf?_concat]
    by_cases he : e.1 = name
    · simp [he]
    · rw [if_neg he, ih, List.map_append, List.mem_append]
      simp [Ne.symm he]

/-- An entry has the name that means it. -/
theorem nameOf_of_indexOf? (h : g.indexOf? name = some i) : g.nameOf i = name := by
  obtain ⟨⟨ts, hts⟩, -⟩ := indexOf?_eq_some_iff.mp h
  rw [nameOf, hts]
  rfl

/-- The entry that a name means lists the targets of the name. -/
theorem targetsOf_of_indexOf? (h : g.indexOf? name = some i) :
    g.targetsOf i = (g.targets name).filterMap g.indexOf? := by
  have hlist : (g[i]?.map Prod.snd).getD [] = g.targets name := by
    induction g using List.reverseRecOn with
    | nil => cases h
    | append_singleton g e ih =>
      rw [indexOf?_concat] at h
      rw [targets_concat]
      by_cases he : e.1 = name
      · rw [if_pos he] at h
        cases h
        simp [he]
      · rw [if_neg he] at h
        obtain ⟨⟨us, hus⟩, -⟩ := indexOf?_eq_some_iff.mp h
        rw [List.getElem?_append_left (List.getElem?_eq_some_iff.mp hus).1, ih h, if_neg he]
  rw [targetsOf, hlist]

/-- An entry that something depends on is the one that its name means. -/
theorem Edge.indexOf?_target (h : g.Edge i j) : g.indexOf? (g.nameOf j) = some j := by
  obtain ⟨b, -, hb⟩ := List.mem_filterMap.mp h
  rw [nameOf_of_indexOf? hb, hb]

/-! ## Dependence between names -/

/-- Between entries that are meant by names, dependence is dependence between the names. -/
theorem edge_iff_links (hi : g.indexOf? a = some i) (hj : g.indexOf? b = some j) :
    g.Edge i j ↔ g.Links a b := by
  rw [Edge, targetsOf_of_indexOf? hi, List.mem_filterMap]
  constructor
  · rintro ⟨c, hc, hcj⟩
    obtain rfl : c = b := (nameOf_of_indexOf? hcj).symm.trans (nameOf_of_indexOf? hj)
    exact ⟨hc, exists_indexOf?_iff.mp ⟨j, hj⟩⟩
  · rintro ⟨hb, -⟩
    exact ⟨b, hb, hj⟩

/-- A name that depends on something means an entry. -/
theorem Links.exists_indexOf? (h : g.Links a b) : ∃ i, g.indexOf? a = some i := by
  rw [exists_indexOf?_iff]
  by_contra hnone
  have htargets : g.targets a = [] := by
    rw [targets, List.lookup_eq_none_iff.mpr ?_]
    · rfl
    · intro e he
      have hname : e.1 ∈ g.map Prod.fst := List.mem_map_of_mem (List.mem_reverse.mp he)
      exact bne_iff_ne.mpr fun hea => hnone (hea ▸ hname)
  have hb := h.1
  rw [htargets] at hb
  cases hb

/-- A chain of names is a chain of the entries that they mean. -/
theorem transGen_edge_of_links (h : TransGen g.Links a b) :
    ∀ {i j}, g.indexOf? a = some i → g.indexOf? b = some j → TransGen g.Edge i j := by
  induction h with
  | single hab =>
    intro i j hi hj
    exact .single ((edge_iff_links hi hj).mpr hab)
  | tail _ hbc ih =>
    intro i j hi hj
    obtain ⟨k, hk⟩ := hbc.exists_indexOf?
    exact (ih hi hk).tail ((edge_iff_links hk hj).mpr hbc)

/-- A step from an entry that is meant by its name is a step of names. -/
theorem Edge.links (h : g.Edge i j) (hi : g.indexOf? (g.nameOf i) = some i) :
    g.Links (g.nameOf i) (g.nameOf j) :=
  (edge_iff_links hi h.indexOf?_target).mp h

/-- A chain of entries, from one that is meant by its name, is a chain of names. -/
theorem reflTransGen_links_of_edge (h : ReflTransGen g.Edge i j) :
    g.indexOf? (g.nameOf i) = some i → ReflTransGen g.Links (g.nameOf i) (g.nameOf j) := by
  induction h using ReflTransGen.head_induction_on with
  | refl => exact fun _ => .refl
  | head hedge _ ih => exact fun hi => (ih hedge.indexOf?_target).head (hedge.links hi)

/-- **A graph is acyclic in entries** exactly if it is acyclic in names. -/
theorem acyclic_iff_links : g.Acyclic ↔ ∀ a, ¬ TransGen g.Links a a := by
  constructor
  · intro hacyclic a hcycle
    obtain ⟨b, hedge, -⟩ := TransGen.head'_iff.mp hcycle
    obtain ⟨i, hi⟩ := hedge.exists_indexOf?
    exact hacyclic i (transGen_edge_of_links hcycle hi hi)
  · intro hacyclic i hcycle
    -- the entry is the target of the last step, so its name means it
    obtain ⟨k, hreach, hedge⟩ := TransGen.tail'_iff.mp hcycle
    have hi := hedge.indexOf?_target
    refine hacyclic (g.nameOf i) (TransGen.head'_iff.mpr ?_)
    obtain ⟨j, hfirst, hback⟩ := TransGen.head'_iff.mp hcycle
    exact ⟨g.nameOf j, hfirst.links hi, reflTransGen_links_of_edge hback hfirst.indexOf?_target⟩

/-! ## Graphs without repeated names -/

/-- The name `a` depends on the name `b`: an entry of `a` lists `b`, and `b` is a name of
the graph. -/
def DependsOn (g : DependencyGraph) (a b : String) : Prop :=
  (∃ targets, (a, targets) ∈ g ∧ b ∈ targets) ∧ b ∈ g.map Prod.fst

/-- Where every name has one entry, any entry of a name is its last. -/
theorem mem_targets_iff_of_nodup (hg : (g.map Prod.fst).Nodup) :
    b ∈ g.targets a ↔ ∃ targets, (a, targets) ∈ g ∧ b ∈ targets := by
  induction g using List.reverseRecOn with
  | nil => simp [targets]
  | append_singleton g e ih =>
    obtain ⟨c, ts⟩ := e
    rw [List.map_append, List.nodup_append] at hg
    obtain ⟨hinit, -, hlast⟩ := hg
    rw [targets_concat]
    by_cases hc : c = a
    · subst hc
      have honly : ∀ us, (c, us) ∉ g := fun us hus =>
        hlast c (List.mem_map_of_mem hus) c (by simp) rfl
      simp [honly]
    · simp [hc, ih hinit, Ne.symm hc]

/-- Where every name has one entry, both readings of dependence agree. -/
theorem links_iff_dependsOn (hg : (g.map Prod.fst).Nodup) : g.Links a b ↔ g.DependsOn a b :=
  and_congr_left' (mem_targets_iff_of_nodup hg)

/-- **Where every name has one entry, a graph is acyclic if no name depends on itself.** -/
theorem acyclic_iff_of_nodup (hg : (g.map Prod.fst).Nodup) :
    g.Acyclic ↔ ∀ a, ¬ TransGen g.DependsOn a a := by
  have hrel : g.Links = g.DependsOn :=
    funext fun a => funext fun b => propext (links_iff_dependsOn hg)
  rw [acyclic_iff_links, hrel]

end SkillLint.DependencyGraph
