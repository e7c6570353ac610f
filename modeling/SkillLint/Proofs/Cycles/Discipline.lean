import Mathlib.Data.List.Chain
import Mathlib.Logic.Relation
import SkillLint.Workflow.Cycles

/-!
# The discipline of the search for cycles

`Search.visit` bounds how deep entries lie inside one another, and `findCycles` starts it
from one entry after another.  Both are instances of one relation without a bound:
`Follows g targets s s'` says that following the edges to `targets` leads the search from
`s` to `s'`.  A white target is entered, its own targets are followed, and it is left; a
black one is passed; a gray one closes a cycle and ends the list.  **Every run of
`findCycles` is one derivation** that follows all entries from the start
(`exists_follows_findCycles`), because the number of white entries is a bound that never
gets tight.  All facts about the search are therefore inductions on this derivation.

The invariant of the search is `Disciplined`: the gray entries are those on the path,
each once, and every entry on the path depends on the next one inwards.  It holds at the
start, and following edges that lead out of the innermost entry keeps it and brings the
path back (`Follows.disciplined`).  Meanwhile colors only go from white to black
(`Follows.color_cases`) and cycles are only added (`Follows.cycles_prefix`).
-/

namespace SkillLint.DependencyGraph

/-- Entry `i` depends on entry `j`. -/
def Edge (g : DependencyGraph) (i j : Nat) : Prop := j ∈ g.targetsOf i

/-- No entry depends on itself, directly or through others. -/
def Acyclic (g : DependencyGraph) : Prop := ∀ i, ¬ Relation.TransGen g.Edge i i

/-- Only entries depend on anything. -/
theorem Edge.lt_length {g : DependencyGraph} {i j : Nat} (h : g.Edge i j) : i < g.length := by
  rcases Nat.lt_or_ge i g.length with hi | hi
  · exact hi
  · rw [Edge, targetsOf, List.getElem?_eq_none hi] at h
    cases h

namespace Search

variable {g : DependencyGraph} {s s' : Search} {i j t : Nat} {ts : List Nat}

/-! ## Colors -/

/-- The number of entries that are still white. -/
def whites (s : Search) : Nat := s.colors.count .white

theorem lt_length_of_color (h : s.color i ≠ .black) : i < s.colors.length := by
  rcases Nat.lt_or_ge i s.colors.length with hi | hi
  · exact hi
  · rw [color, List.getElem?_eq_none hi] at h
    exact absurd rfl h

theorem color_enter_self (h : s.color i ≠ .black) : (s.enter i).color i = .gray := by
  simp [color, enter, lt_length_of_color h]

theorem color_enter_of_ne (h : j ≠ i) : (s.enter i).color j = s.color j := by
  simp [color, enter, List.getElem?_set_ne (Ne.symm h)]

@[simp] theorem color_leave_self : (s.leave i).color i = .black := by
  rcases Nat.lt_or_ge i s.colors.length with hi | hi
  · simp [color, leave, hi]
  · rw [color, leave, List.getElem?_eq_none (by simpa using hi)]
    rfl

theorem color_leave_of_ne (h : j ≠ i) : (s.leave i).color j = s.color j := by
  simp [color, leave, List.getElem?_set_ne (Ne.symm h)]

@[simp] theorem colors_close : (s.close g t).colors = s.colors := by
  unfold close; split <;> rfl

@[simp] theorem path_close : (s.close g t).path = s.path := by
  unfold close; split <;> rfl

@[simp] theorem color_close : (s.close g t).color i = s.color i := by
  rw [color, colors_close]; rfl

/-- Entering takes a white entry away. -/
theorem whites_enter (h : s.color i = .white) : (s.enter i).whites + 1 = s.whites := by
  have hi : i < s.colors.length := lt_length_of_color (by rw [h]; decide)
  have hw : s.colors[i] = .white := by simpa [color, hi] using h
  have hpos : 0 < s.colors.count .white := List.count_pos_iff.mpr (hw ▸ List.getElem_mem hi)
  rw [whites, whites, enter, List.count_set hi, hw]
  simp only [beq_self_eq_true, ite_true, show (Color.gray == Color.white) = false from rfl]
  simp only [Bool.false_eq_true, ite_false, Nat.add_zero]
  omega

theorem whites_leave_le : (s.leave i).whites ≤ s.whites := by
  rcases Nat.lt_or_ge i s.colors.length with hi | hi
  · rw [whites, whites, leave, List.count_set hi]
    simp
  · rw [whites, leave, List.set_eq_of_length_le hi]
    exact Nat.le_refl _

/-! ## Following edges, without a bound -/

/-- **Following edges.**  A white target is entered, its own targets are followed, and it
is left; a black one is passed; a gray one closes a cycle, and the targets behind it are
not looked at. -/
inductive Follows (g : DependencyGraph) : List Nat → Search → Search → Prop
  | done (s : Search) : Follows g [] s s
  | closes {t : Nat} {rest : List Nat} {s : Search} (hgray : s.color t = .gray) :
      Follows g (t :: rest) s (s.close g t)
  | passes {t : Nat} {rest : List Nat} {s s' : Search} (hblack : s.color t = .black)
      (hrest : Follows g rest s s') : Follows g (t :: rest) s s'
  | enters {t : Nat} {rest : List Nat} {s inner s' : Search} (hwhite : s.color t = .white)
      (hinner : Follows g (g.targetsOf t) (s.enter t) inner)
      (hrest : Follows g rest (inner.leave t) s') : Follows g (t :: rest) s s'

theorem Follows.whites_le (h : Follows g ts s s') : s'.whites ≤ s.whites := by
  induction h with
  | done s => exact Nat.le_refl _
  | closes _ => rw [whites, colors_close]; exact Nat.le_refl _
  | passes _ _ ih => exact ih
  | @enters t rest s inner s' hwhite _ _ ihinner ihrest =>
    have hleave : (inner.leave t).whites ≤ inner.whites := whites_leave_le
    have henter := whites_enter hwhite
    omega

theorem visit_eq {depth : Nat} (h : 0 < depth) : visit g depth i s =
    (follow g (visit g (depth - 1)) (g.targetsOf i) (s.enter i)).leave i := by
  obtain ⟨d, rfl⟩ := Nat.exists_eq_add_of_lt h
  simp [visit]

/-- The search with a bound on the depth does the same, if the bound is no less than the
number of white entries. -/
theorem follows_follow (g : DependencyGraph) : ∀ (depth : Nat) (ts : List Nat) (s : Search),
    s.whites ≤ depth → Follows g ts s (follow g (visit g depth) ts s)
  | _, [], s, _ => .done s
  | depth, t :: rest, s, h => by
      unfold follow
      cases hc : s.color t with
      | gray => exact .closes hc
      | black => exact .passes hc (follows_follow g depth rest s h)
      | white =>
          have henter := whites_enter hc
          have hinner := follows_follow g (depth - 1) (g.targetsOf t) (s.enter t) (by omega)
          rw [visit_eq (by omega)]
          refine .enters hc hinner (follows_follow g depth rest _ ?_)
          exact Nat.le_trans whites_leave_le (Nat.le_trans hinner.whites_le (by omega))
  termination_by depth ts => (depth, ts.length)

theorem Follows.cycles_prefix (h : Follows g ts s s') : s.cycles <+: s'.cycles := by
  induction h with
  | done s => exact List.prefix_rfl
  | closes _ =>
    unfold close
    split
    · exact List.prefix_append _ _
    · exact List.prefix_rfl
  | passes _ _ ih => exact ih
  | enters _ _ _ ihinner ihrest => exact ihinner.trans ihrest

/-- What is gray or black keeps its color. -/
theorem Follows.color_of_ne_white (h : Follows g ts s s') (hj : s.color j ≠ .white) :
    s'.color j = s.color j := by
  induction h with
  | done s => rfl
  | closes _ => exact color_close
  | passes _ _ ih => exact ih hj
  | @enters t rest s inner s' hwhite _ _ ihinner ihrest =>
    have hne : j ≠ t := fun he => hj (he ▸ hwhite)
    have hinner : inner.color j = s.color j := by
      rw [ihinner (by rwa [color_enter_of_ne hne]), color_enter_of_ne hne]
    have hleft : (inner.leave t).color j = s.color j := by
      rw [color_leave_of_ne hne, hinner]
    rw [ihrest (by rwa [hleft]), hleft]

/-! ## The path -/

/-- **The discipline of the search.**  The gray entries are those on the path, each once,
and every entry on the path depends on the next one inwards. -/
structure Disciplined (g : DependencyGraph) (s : Search) : Prop where
  size : s.colors.length = g.length
  gray_iff : ∀ i, s.color i = .gray ↔ i ∈ s.path
  nodup : s.path.Nodup
  chain : s.path.IsChain fun inner outer => g.Edge outer inner

/-- The targets are targets of the innermost entry on the path. -/
def Leads (g : DependencyGraph) (s : Search) (ts : List Nat) : Prop :=
  ∀ i ∈ s.path.head?, ∀ t ∈ ts, g.Edge i t

theorem Leads.head (h : s.Leads g (t :: ts)) : ∀ i ∈ s.path.head?, g.Edge i t :=
  fun i hi => h i hi t List.mem_cons_self

theorem Leads.tail (h : s.Leads g (t :: ts)) : s.Leads g ts :=
  fun i hi j hj => h i hi j (List.mem_cons_of_mem _ hj)

/-- An entry leads to its own targets. -/
theorem leads_enter : (s.enter t).Leads g (g.targetsOf t) := by
  intro i hi j hj
  cases hi
  exact hj

/-- From outside all entries everything may be followed. -/
theorem leads_of_path_nil (h : s.path = []) (ts : List Nat) : s.Leads g ts := by
  intro i hi
  rw [h] at hi
  cases hi

theorem disciplined_start (g : DependencyGraph) : (start g).Disciplined g where
  size := List.length_replicate
  gray_iff i := by
    refine ⟨fun h => ?_, fun h => absurd h List.not_mem_nil⟩
    have hi := lt_length_of_color (s := start g) (i := i) (by rw [h]; decide)
    simp only [start, List.length_replicate] at hi
    simp [color, start, hi] at h
  nodup := List.nodup_nil
  chain := .nil

theorem Disciplined.close (hd : s.Disciplined g) (t : Nat) : (s.close g t).Disciplined g where
  size := by rw [colors_close]; exact hd.size
  gray_iff i := by rw [color_close, path_close]; exact hd.gray_iff i
  nodup := by rw [path_close]; exact hd.nodup
  chain := by rw [path_close]; exact hd.chain

theorem Disciplined.enter (hd : s.Disciplined g) (hwhite : s.color t = .white)
    (hlead : ∀ i ∈ s.path.head?, g.Edge i t) : (s.enter t).Disciplined g where
  size := by rw [Search.enter, List.length_set]; exact hd.size
  gray_iff i := by
    show (s.enter t).color i = .gray ↔ i ∈ t :: s.path
    rw [List.mem_cons, ← hd.gray_iff]
    by_cases hi : i = t
    · subst hi
      exact ⟨fun _ => .inl rfl, fun _ => color_enter_self (by rw [hwhite]; decide)⟩
    · rw [color_enter_of_ne hi]
      exact ⟨.inr, fun h => h.resolve_left hi⟩
  nodup := by
    refine List.nodup_cons.mpr ⟨fun hmem => ?_, hd.nodup⟩
    rw [(hd.gray_iff t).mpr hmem] at hwhite
    cases hwhite
  chain := List.isChain_cons.mpr ⟨hlead, hd.chain⟩

theorem Disciplined.leave {p : List Nat} (hd : s.Disciplined g) (hpath : s.path = t :: p) :
    (s.leave t).Disciplined g where
  size := by rw [Search.leave, List.length_set]; exact hd.size
  gray_iff i := by
    have hnodup : t ∉ p := (List.nodup_cons.mp (hpath ▸ hd.nodup)).1
    show (s.leave t).color i = .gray ↔ i ∈ s.path.drop 1
    rw [hpath, List.drop_one, List.tail_cons]
    by_cases hi : i = t
    · subst hi
      rw [color_leave_self]
      exact ⟨fun h => absurd h (by decide), fun h => absurd h hnodup⟩
    · rw [color_leave_of_ne hi, hd.gray_iff, hpath, List.mem_cons]
      exact ⟨fun h => h.resolve_left hi, .inr⟩
  nodup := hd.nodup.sublist (List.drop_sublist 1 _)
  chain := by
    show (s.path.drop 1).IsChain _
    rw [List.drop_one]
    exact hd.chain.tail

/-- The path after leaving what was entered. -/
theorem path_leave {p : List Nat} (hpath : s.path = t :: p) : (s.leave t).path = p := by
  rw [leave, hpath]; rfl

/-- **Following edges out of the innermost entry keeps the discipline and brings the path
back.** -/
theorem Follows.disciplined (h : Follows g ts s s') (hd : s.Disciplined g)
    (hlead : s.Leads g ts) : s'.Disciplined g ∧ s'.path = s.path := by
  induction h with
  | done s => exact ⟨hd, rfl⟩
  | closes _ => exact ⟨hd.close _, path_close⟩
  | passes _ _ ih => exact ih hd hlead.tail
  | @enters t rest s inner s' hwhite _ _ ihinner ihrest =>
    obtain ⟨hdinner, hpath⟩ := ihinner (hd.enter hwhite hlead.head) leads_enter
    have hleft := path_leave hpath
    obtain ⟨hd', hpath'⟩ := ihrest (hdinner.leave hpath) fun i hi => hlead.tail i (hleft ▸ hi)
    exact ⟨hd', hpath'.trans hleft⟩

/-- **Entering a white target, following its edges and leaving it** is disciplined all
along, and afterwards the search stands where it stood before. -/
theorem Disciplined.through {inner : Search} (hd : s.Disciplined g) (hlead : s.Leads g (t :: ts))
    (hwhite : s.color t = .white) (hinner : Follows g (g.targetsOf t) (s.enter t) inner) :
    (s.enter t).Disciplined g ∧ (inner.leave t).Disciplined g ∧ (inner.leave t).Leads g ts ∧
      (inner.leave t).path = s.path := by
  have henter := hd.enter hwhite hlead.head
  obtain ⟨hdinner, hpath⟩ := hinner.disciplined henter leads_enter
  have hleft := path_leave hpath
  exact ⟨henter, hdinner.leave hpath, fun i hi => hlead.tail i (hleft ▸ hi), hleft⟩

/-- Between the start and the end of following edges, an entry keeps its color or goes
from white to black. -/
theorem Follows.color_cases (h : Follows g ts s s') (hd : s.Disciplined g)
    (hlead : s.Leads g ts) (j : Nat) :
    s'.color j = s.color j ∨ s.color j = .white ∧ s'.color j = .black := by
  by_cases hj : s.color j = .white
  · cases hc : s'.color j with
    | white => exact .inl hj.symm
    | black => exact .inr ⟨hj, rfl⟩
    | gray =>
      obtain ⟨hd', hpath⟩ := h.disciplined hd hlead
      rw [hd'.gray_iff, hpath, ← hd.gray_iff, hj] at hc
      cases hc
  · exact .inl (h.color_of_ne_white hj)

/-! ## The whole search -/

/-- Visiting the white ones among some entries, from outside all entries, is following
them. -/
theorem follows_foldl (g : DependencyGraph) : ∀ (entries : List Nat) (s : Search),
    s.Disciplined g → s.path = [] →
    Follows g entries s (entries.foldl
      (fun s i => if s.color i = .white then visit g g.length i s else s) s)
  | [], s, _, _ => .done s
  | i :: rest, s, hd, hpath => by
      rw [List.foldl_cons]
      cases hc : s.color i with
      | gray =>
          -- outside all entries nothing is gray
          rw [hd.gray_iff, hpath] at hc
          cases hc
      | black => exact .passes hc (follows_foldl g rest s hd hpath)
      | white =>
          -- the entry itself is no longer white, so one level less is enough inside it
          have hbound : (s.enter i).whites ≤ g.length - 1 := by
            have hle : s.whites ≤ s.colors.length := List.count_le_length
            have henter := whites_enter hc
            rw [hd.size] at hle
            omega
          have hpos : 0 < g.length := by
            have hi := lt_length_of_color (s := s) (i := i) (by rw [hc]; decide)
            rw [hd.size] at hi
            omega
          have hinner := follows_follow g (g.length - 1) (g.targetsOf i) (s.enter i) hbound
          obtain ⟨-, hdleft, -, hpleft⟩ :=
            hd.through (leads_of_path_nil hpath (i :: rest)) hc hinner
          rw [if_pos rfl, visit_eq hpos]
          exact .enters hc hinner (follows_foldl g rest _ hdleft (hpleft.trans hpath))

end Search

/-- **A run of `findCycles` follows all entries from the start.** -/
theorem exists_follows_findCycles (g : DependencyGraph) :
    ∃ s, Search.Follows g (List.range g.length) (Search.start g) s ∧ g.findCycles = s.cycles :=
  ⟨_, Search.follows_foldl g _ _ (Search.disciplined_start g) rfl, rfl⟩

end SkillLint.DependencyGraph
