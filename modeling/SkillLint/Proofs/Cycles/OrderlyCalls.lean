import SkillLint.Proofs.Cycles.Calls

/-!
# All calls of the search are orderly

A call is `Orderly` if it finds a white entry and a path with exactly the gray entries on it, and
returns with the path as it was, its entry black, and no other entry touched except for white ones
that are black now.  A gray target that it comes upon is found on the path, so closing the cycle
never fails, and the bound on the depth is never met.

Outside all entries nothing is gray, so the turns of `findCycles` are a loop like any other
(`Fits.turns_eq_looks`).  It starts with room for all entries, and every call passes on what it
needs to be orderly to the calls inside it (`Call.Placed.of_mem_callsFrom`).  Hence **all calls are
orderly, every entry is entered exactly once, and the cycles found are those that the calls close**,
none of them dropped (`calls_orderly`).
-/

namespace SkillLint.DependencyGraph

open Search

variable {g : DependencyGraph}

namespace Search

variable {s s' : Search} {ts : List Nat}

/-! ## From outside all entries -/

/-- Outside all entries nothing is gray. -/
theorem Disciplined.not_gray (hd : s.Disciplined g) (hpath : s.path = []) (j : Nat) :
    s.color j ≠ .gray := by
  rw [Ne, hd.gray_iff, hpath]
  exact List.not_mem_nil

/-- **The turns of entries** are what a loop over them comes upon. -/
theorem Fits.turns_eq_looks (h : s.Fits g g.length ts) (hpath : s.path = []) :
    List.zipWith Look.mk ts (ts.scanl g.turn s) = looks (visit g g.length) ts s ∧
      ts.foldl g.turn s = follow g (visit g g.length) ts s := by
  induction ts generalizing s with
  | nil => exact ⟨rfl, rfl⟩
  | cons t rest ih =>
    rw [List.scanl_cons, List.zipWith_cons_cons, List.foldl_cons]
    unfold looks follow
    cases hc : s.color t with
    | gray => exact absurd hc (h.disciplined.not_gray hpath t)
    | black =>
      have hturn : g.turn s t = s := if_neg (by rw [hc]; decide)
      obtain ⟨hlooks, hrun⟩ := ih h.tail hpath
      rw [hturn, hlooks]
      exact ⟨rfl, hrun⟩
    | white =>
      have hturn : g.turn s t = visit g g.length t s := if_pos hc
      obtain ⟨hrest, hback⟩ := h.after_call hc
      obtain ⟨hlooks, hrun⟩ := ih hrest (hback.trans hpath)
      rw [hturn, hlooks]
      exact ⟨rfl, hrun⟩

/-- Outside all entries a loop ends only when all its targets have been entered. -/
theorem Follows.color_ne_white (h : Follows g ts s s') (hd : s.Disciplined g)
    (hpath : s.path = []) : ∀ t ∈ ts, s'.color t ≠ .white := by
  induction h with
  | done s => exact fun t ht => absurd ht List.not_mem_nil
  | closes hgray => exact absurd hgray (hd.not_gray hpath _)
  | @passes t rest s s' hblack hrest ih =>
    refine List.forall_mem_cons.mpr ⟨?_, ih hd hpath⟩
    rw [hrest.color_of_ne_white (by rw [hblack]; decide), hblack]
    decide
  | @enters t rest s inner s' hwhite hinner hrest _ ihrest =>
    obtain ⟨-, hdleft, -, hback⟩ :=
      hd.through (leads_of_path_nil hpath (t :: rest)) hwhite hinner
    refine List.forall_mem_cons.mpr ⟨?_, ihrest hdleft (hback.trans hpath)⟩
    rw [hrest.color_of_ne_white (by rw [color_leave_self]; decide), color_leave_self]
    decide

/-- At the start every entry is white. -/
theorem whiteAt_start (g : DependencyGraph) (j : Nat) :
    (start g).whiteAt j = (List.range g.length).count j := by
  rw [List.nodup_range.count, whiteAt, color, start, List.getElem?_replicate]
  by_cases hj : j < g.length <;> simp [hj]

theorem fits_start (g : DependencyGraph) : (start g).Fits g g.length (List.range g.length) where
  disciplined := disciplined_start g
  leads := leads_of_path_nil rfl _
  whites_le := List.count_le_length.trans_eq List.length_replicate

end Search

/-- What `findCycles` comes upon is in order, outside all entries. -/
theorem fits_of_mem_turns (g : DependencyGraph) : ∀ l ∈ g.turns,
    l.search.Fits g g.length [l.target] ∧ l.search.path = [] := by
  obtain ⟨hturns, -⟩ := (fits_start g).turns_eq_looks rfl
  rw [turns, hturns]
  exact (fits_start g).of_mem_looks

/-- **A run is what its calls account for.** -/
theorem accounts_calls (g : DependencyGraph) :
    Accounts g (start g) g.calls none ((List.range g.length).foldl g.turn (start g)) := by
  obtain ⟨hturns, hrun⟩ := (fits_start g).turns_eq_looks rfl
  have hclosed : g.closing? g.turns = none := by
    rw [closing?, Option.map_eq_none_iff, List.find?_eq_none]
    intro l hl hgray
    obtain ⟨hfits, hpath⟩ := g.fits_of_mem_turns l hl
    exact hfits.disciplined.not_gray hpath l.target (of_decide_eq_true hgray)
  have hloop := (fits_start g).accounts_follow fun h hwhite => h.accounts_visit hwhite
  rwa [← hturns, ← hrun, ← turns, hclosed] at hloop

/-- **Every entry is entered exactly once.** -/
theorem perm_entries_calls (g : DependencyGraph) :
    (g.calls.map Call.entry).Perm (List.range g.length) := by
  have hfollows : Follows g (List.range g.length) (start g)
      ((List.range g.length).foldl g.turn (start g)) :=
    follows_foldl g _ _ (disciplined_start g) rfl
  have hend := hfollows.color_ne_white (disciplined_start g) rfl
  refine List.perm_iff_count.mpr fun j => ?_
  have hentered := g.accounts_calls.entered j
  rw [whiteAt_start] at hentered
  by_cases hj : j ∈ List.range g.length
  · rwa [whiteAt, if_neg (hend j hj), Nat.add_zero] at hentered
  · rw [List.count_eq_zero_of_not_mem hj] at hentered ⊢
    omega

/-! ## Every call -/

theorem mem_callsAt {calls : Nat → Search → List Call} {looks : List Look} {c : Call} :
    c ∈ callsAt calls looks ↔ ∃ l ∈ looks, l.color = .white ∧ c ∈ calls l.target l.search := by
  simp only [callsAt, List.mem_flatMap, List.mem_ite_nil_right]

namespace Call

variable {c : Call}

/-- Where a call stands: its entry is white, there is room for it, and the entries on the path have
used one level of the bound each. -/
structure Placed (g : DependencyGraph) (c : Call) : Prop where
  white : c.before.color c.entry = .white
  fits : c.before.Fits g c.depth [c.entry]
  level : c.before.path.length + c.depth = g.length

/-- **The calls inside a call** are placed as it is. -/
theorem Placed.of_mem_callsFrom {depth i : Nat} {s : Search} (h : Placed g ⟨depth, i, s⟩) :
    ∀ c ∈ g.callsFrom depth i s, c.Placed g := by
  induction depth generalizing i s with
  | zero => exact List.forall_mem_singleton.mpr h
  | succ d ih =>
    have hroom : s.Fits g (d + 1) [i] := h.fits
    obtain ⟨_, ⟨⟩, hinner⟩ := hroom.enter h.white
    refine List.forall_mem_append.mpr ⟨fun c hc => ?_, List.forall_mem_singleton.mpr h⟩
    obtain ⟨l, hl, hwhite, hc⟩ := mem_callsAt.mp hc
    obtain ⟨hfits, hpath⟩ := hinner.of_mem_looks l hl
    have houter : s.path.length + (d + 1) = g.length := h.level
    have hlevel : l.search.path.length + d = g.length := by
      rw [hpath, ← houter, Search.enter, List.length_cons]
      omega
    exact ih ⟨hwhite, hfits, hlevel⟩ c hc

/-- **All calls of a run are placed.** -/
theorem placed_of_mem_calls (hc : c ∈ g.calls) : c.Placed g := by
  obtain ⟨l, hl, hwhite, hc⟩ := mem_callsAt.mp hc
  obtain ⟨hfits, hpath⟩ := g.fits_of_mem_turns l hl
  refine Placed.of_mem_callsFrom ⟨hwhite, hfits, ?_⟩ c hc
  rw [hpath, List.length_nil, Nat.zero_add]

/-- **The discipline of one call.** -/
structure Orderly (g : DependencyGraph) (c : Call) : Prop where
  /-- On entry the entry is white. -/
  white : c.before.color c.entry = .white
  /-- On entry the gray entries are those on the path, each once. -/
  gray_iff : ∀ i, c.before.color i = .gray ↔ i ∈ c.before.path
  nodup : c.before.path.Nodup
  /-- On return the path is what it was. -/
  path_after : (c.after g).path = c.before.path
  black_after : (c.after g).color c.entry = .black
  /-- Every other entry is as it was, or has gone from white to black. -/
  others_after : ∀ i, i ≠ c.entry → (c.after g).color i = c.before.color i ∨
    c.before.color i = .white ∧ (c.after g).color i = .black
  gray_iff_after : ∀ i, (c.after g).color i = .gray ↔ i ∈ (c.after g).path
  /-- A gray target is found on the path, and its cycle is added. -/
  closes : ∀ l ∈ c.looks g, l.color = .gray →
    l.target ∈ l.search.path ∧ (l.search.close g l.target).cycles = l.search.cycles ++ [l.cycle g]
  /-- The bound is the number of entries, less one for each call around this one, and it is never
  met: with this call, no more are under way than there are entries. -/
  level : c.before.path.length + c.depth = g.length
  depth_pos : 0 < c.depth
  /-- So the call returns the same with any larger bound. -/
  unbounded : ∀ depth, c.depth ≤ depth → visit g depth c.entry c.before = c.after g

/-- **A call that is placed is orderly.** -/
theorem Placed.orderly (h : c.Placed g) : c.Orderly g := by
  have hd := h.fits.disciplined
  obtain ⟨d, hdepth, hinner⟩ := h.fits.enter h.white
  obtain ⟨inner, hfollows, hafter⟩ := h.fits.exists_follows h.white
  obtain ⟨henter, hdleft, -, hpath⟩ := hd.through h.fits.leads h.white hfollows
  have hafter : c.after g = inner.leave c.entry := hafter
  refine ⟨h.white, hd.gray_iff, hd.nodup, ?path, ?black, ?others, ?gray, ?closes, h.level, ?depth,
    fun depth hle => h.fits.visit_of_le h.white hle⟩
  case path => rw [hafter, hpath]
  case black => rw [hafter, color_leave_self]
  case others =>
    intro i hi
    have hcases := hfollows.color_cases henter leads_enter i
    rwa [color_enter_of_ne hi, ← color_leave_of_ne (s := inner) hi, ← hafter] at hcases
  case gray =>
    rw [hafter]
    exact hdleft.gray_iff
  case closes =>
    intro l hl hgray
    rw [Call.looks, hdepth] at hl
    obtain ⟨hfits, -⟩ := hinner.of_mem_looks l hl
    exact hfits.disciplined.close_gray hgray hfits.leads.head
  case depth => omega

end Call

/-- **Every call of a run is orderly, every entry is entered exactly once, and the cycles found are
those that the calls close**, in the order in which they return. -/
theorem calls_orderly (g : DependencyGraph) :
    (∀ c ∈ g.calls, c.Orderly g) ∧ (g.calls.map Call.entry).Perm (List.range g.length) ∧
      g.findCycles = g.calls.filterMap (Call.cycle? g) := by
  refine ⟨fun c hc => (Call.placed_of_mem_calls hc).orderly, g.perm_entries_calls, ?_⟩
  have hcycles := g.accounts_calls.cycles
  rwa [Option.toList_none, List.append_nil, show (start g).cycles = [] from rfl,
    List.nil_append] at hcycles

/-- The call for the review in `revisedGraph`: it lies inside two others, for the plan and for the
draft. -/
def reviewCall : Call := ⟨2, 2, ⟨[.gray, .gray, .white, .white], [1, 0], []⟩⟩

theorem calls_orderly_revisedGraph :
    reviewCall ∈ revisedGraph.calls ∧ reviewCall.Orderly revisedGraph ∧
      (revisedGraph.calls.map Call.entry).Perm [0, 1, 2, 3] ∧
      revisedGraph.findCycles = revisedGraph.calls.filterMap (Call.cycle? revisedGraph) ∧
      reviewCall.cycle? revisedGraph = some ["draft", "review", "draft"] := by
  have hmem : reviewCall ∈ revisedGraph.calls := by decide
  obtain ⟨horderly, hentries, hcycles⟩ := calls_orderly revisedGraph
  exact ⟨hmem, horderly reviewCall hmem, hentries, hcycles, by decide⟩

end SkillLint.DependencyGraph
