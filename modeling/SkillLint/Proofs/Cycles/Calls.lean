import SkillLint.Proofs.Cycles.Loops

/-!
# The calls of the search

`Search.visit` is called from two loops: `findCycles` has a turn for every entry, and a call
follows the edges out of its own entry.  What a loop comes upon is a `Look`, a target together with
the search as it stands then.  At a white target the loop makes a `Call`, a black one is passed, and
a gray one ends the loop.  `calls` lists all calls of a run in the order in which they return, each
with the bound on the depth that is left to it.

A call is made only where the search is disciplined and the bound is no less than the number of white
entries (`Fits`).  Both pass on to everything that the call comes upon (`Fits.of_mem_looks`),
although the calls inside it take white entries away while its loop is still under way.  So the bound is never met, and **a larger one changes nothing** (`Fits.visit_of_le`).

No call is missing in the list.  A loop depends on `visit` only where it looks at a white entry
(`follow_congr_looks`), and **what a call does is what it and the calls inside it account for**
(`Fits.accounts_visit`): every entry that stops being white was entered by one of them, once, and
every cycle was closed by one of them.
-/

namespace SkillLint.DependencyGraph

open Search

/-- A loop comes upon a target, with the search as it stands then. -/
structure Look where
  target : Nat
  search : Search
  deriving Repr, DecidableEq

/-- The color of the target. -/
def Look.color (l : Look) : Color := l.search.color l.target

/-- A call of `Search.visit`. -/
structure Call where
  /-- How many calls may lie inside one another from here on, this one included. -/
  depth : Nat
  entry : Nat
  /-- The search on entry. -/
  before : Search
  deriving Repr, DecidableEq

/-! ## What is called -/

/-- What a loop over targets comes upon.  A gray target is the last one. -/
def Search.looks (visit : Nat → Search → Search) : List Nat → Search → List Look
  | [], _ => []
  | t :: rest, s =>
    ⟨t, s⟩ :: match s.color t with
      | .gray => []
      | .white => looks visit rest (visit t s)
      | .black => looks visit rest s

/-- The calls of a loop: a white target is called, with the calls that this leads to. -/
def callsAt (calls : Nat → Search → List Call) (looks : List Look) : List Call :=
  looks.flatMap fun l => if l.color = .white then calls l.target l.search else []

/-- A call and the calls inside it, in the order in which they return. -/
def callsFrom (g : DependencyGraph) : Nat → Nat → Search → List Call
  | 0, i, s => [⟨0, i, s⟩]
  | depth + 1, i, s =>
    callsAt (g.callsFrom depth) (looks (visit g depth) (g.targetsOf i) (s.enter i)) ++
      [⟨depth + 1, i, s⟩]

/-- The turn of an entry in `findCycles`. -/
def turn (g : DependencyGraph) (s : Search) (i : Nat) : Search :=
  if s.color i = .white then visit g g.length i s else s

/-- What `findCycles` comes upon: every entry, with the search as it stands at its turn. -/
def turns (g : DependencyGraph) : List Look :=
  List.zipWith Look.mk (List.range g.length) ((List.range g.length).scanl g.turn (start g))

/-- The calls that `findCycles` makes and leads to, in the order in which they return. -/
def calls (g : DependencyGraph) : List Call := callsAt (g.callsFrom g.length) g.turns

namespace Call

/-- The search on return. -/
def after (g : DependencyGraph) (c : Call) : Search := visit g c.depth c.entry c.before

/-- What a call comes upon as it follows the edges out of its entry. -/
def looks (g : DependencyGraph) (c : Call) : List Look :=
  Search.looks (visit g (c.depth - 1)) (g.targetsOf c.entry) (c.before.enter c.entry)

end Call

/-- The names on the path from the target inwards, and the target again. -/
def Look.cycle (g : DependencyGraph) (l : Look) : List String :=
  (l.search.path.reverse.dropWhile (· ≠ l.target) ++ [l.target]).map g.nameOf

/-- The cycle that a loop closes: that of its gray target. -/
def closing? (g : DependencyGraph) (looks : List Look) : Option (List String) :=
  (looks.find? fun l => l.color = .gray).map (Look.cycle g)

/-- The cycle that a call closes itself. -/
def Call.cycle? (g : DependencyGraph) (c : Call) : Option (List String) := g.closing? (c.looks g)

variable {g : DependencyGraph}

namespace Search

variable {s s' : Search} {i j t : Nat} {ts : List Nat} {depth : Nat}

/-- A loop depends on `visit` only where it looks at a white entry. -/
theorem follow_congr_looks {visit visit' : Nat → Search → Search}
    (h : ∀ l ∈ looks visit ts s, l.color = .white →
      visit' l.target l.search = visit l.target l.search) :
    follow g visit' ts s = follow g visit ts s := by
  induction ts generalizing s with
  | nil => rfl
  | cons t rest ih =>
    unfold follow
    unfold looks at h
    cases hc : s.color t with
    | gray => rfl
    | black =>
      rw [hc] at h
      exact ih fun l hl => h l (List.mem_cons_of_mem _ hl)
    | white =>
      rw [hc] at h
      have ht : visit' t s = visit t s := h ⟨t, s⟩ List.mem_cons_self hc
      simp only [ht]
      exact ih fun l hl => h l (List.mem_cons_of_mem _ hl)

/-! ## Room for the entries that are still white -/

/-- **Following the targets is in order**: the search is disciplined, the targets are those of the
innermost entry, and the bound is no less than the number of white entries. -/
structure Fits (g : DependencyGraph) (depth : Nat) (ts : List Nat) (s : Search) : Prop where
  disciplined : s.Disciplined g
  leads : s.Leads g ts
  whites_le : s.whites ≤ depth

theorem Fits.head (h : s.Fits g depth (t :: ts)) : s.Fits g depth [t] where
  disciplined := h.disciplined
  leads i hi _ hj := List.mem_singleton.mp hj ▸ h.leads.head i hi
  whites_le := h.whites_le

theorem Fits.tail (h : s.Fits g depth (t :: ts)) : s.Fits g depth ts where
  disciplined := h.disciplined
  leads := h.leads.tail
  whites_le := h.whites_le

/-- Inside a call there is room for one entry less. -/
theorem Fits.enter (h : s.Fits g depth [t]) (hwhite : s.color t = .white) :
    ∃ d, depth = d + 1 ∧ (s.enter t).Fits g d (g.targetsOf t) := by
  have hcount := whites_enter hwhite
  have hle := h.whites_le
  exact ⟨depth - 1, by omega, h.disciplined.enter hwhite h.leads.head, leads_enter, by omega⟩

/-- A call follows the edges out of its entry without a bound, and leaves the entry. -/
theorem Fits.exists_follows (h : s.Fits g depth [t]) (hwhite : s.color t = .white) :
    ∃ inner, Follows g (g.targetsOf t) (s.enter t) inner ∧ visit g depth t s = inner.leave t := by
  obtain ⟨d, rfl, hd⟩ := h.enter hwhite
  exact ⟨_, follows_follow g d _ _ hd.whites_le, rfl⟩

/-- After a call the rest of the loop is in order, with the path as it was. -/
theorem Fits.after_call (h : s.Fits g depth (t :: ts)) (hwhite : s.color t = .white) :
    (visit g depth t s).Fits g depth ts ∧ (visit g depth t s).path = s.path := by
  obtain ⟨inner, hinner, hvisit⟩ := h.head.exists_follows hwhite
  obtain ⟨-, hdleft, hlead, hpath⟩ := h.disciplined.through h.leads hwhite hinner
  have hleave : (inner.leave t).whites ≤ inner.whites := whites_leave_le
  have henter := whites_enter hwhite
  have hwhites := hinner.whites_le
  have hle := h.whites_le
  rw [hvisit]
  exact ⟨⟨hdleft, hlead, by omega⟩, hpath⟩

/-- **Everything that a loop comes upon** is in order, with the path as it was. -/
theorem Fits.of_mem_looks (h : s.Fits g depth ts) :
    ∀ l ∈ looks (visit g depth) ts s,
      l.search.Fits g depth [l.target] ∧ l.search.path = s.path := by
  induction ts generalizing s with
  | nil => exact fun l hl => absurd hl List.not_mem_nil
  | cons t rest ih =>
    unfold looks
    refine List.forall_mem_cons.mpr ⟨⟨h.head, rfl⟩, ?_⟩
    cases hc : s.color t with
    | gray => exact fun l hl => absurd hl List.not_mem_nil
    | black => exact ih h.tail
    | white =>
      obtain ⟨hrest, hpath⟩ := h.after_call hc
      simp only [← hpath]
      exact ih hrest

/-- **A larger bound changes nothing.** -/
theorem Fits.visit_of_le {depth' : Nat} (h : s.Fits g depth [i]) (hwhite : s.color i = .white)
    (hle : depth ≤ depth') : visit g depth' i s = visit g depth i s := by
  induction depth generalizing depth' i s with
  | zero =>
    obtain ⟨d, hd, -⟩ := h.enter hwhite
    omega
  | succ d ih =>
    obtain ⟨d', rfl⟩ := Nat.exists_eq_add_of_lt hle
    obtain ⟨_, ⟨⟩, hinner⟩ := h.enter hwhite
    refine congrArg (fun s => s.leave i) (follow_congr_looks fun l hl hlwhite => ?_)
    exact ih (hinner.of_mem_looks l hl).1 hlwhite (by omega)

/-! ## What calls account for -/

/-- One for an entry that is still white, none for any other. -/
def whiteAt (s : Search) (j : Nat) : Nat := if s.color j = .white then 1 else 0

theorem whiteAt_enter (hwhite : s.color i = .white) (j : Nat) :
    [i].count j + (s.enter i).whiteAt j = s.whiteAt j := by
  by_cases hj : j = i
  · subst hj
    have hgray : (s.enter j).color j = .gray := color_enter_self (by rw [hwhite]; decide)
    simp [whiteAt, hgray, hwhite]
  · simp [whiteAt, color_enter_of_ne hj, Ne.symm hj]

theorem whiteAt_leave (h : s.color i ≠ .white) (j : Nat) : (s.leave i).whiteAt j = s.whiteAt j := by
  by_cases hj : j = i
  · subst hj
    simp [whiteAt, h]
  · simp [whiteAt, color_leave_of_ne hj]

/-- **What calls account for** between two searches: the entries that stop being white are those
that they enter, each once, and the cycles added are those that they close, in the order in which
they return, before the one that the loop itself has closed. -/
structure Accounts (g : DependencyGraph) (s : Search) (calls : List Call)
    (closed : Option (List String)) (s' : Search) : Prop where
  entered : ∀ j, (calls.map Call.entry).count j + s'.whiteAt j = s.whiteAt j
  cycles : s'.cycles = s.cycles ++ calls.filterMap (Call.cycle? g) ++ closed.toList

theorem accounts_nil (s : Search) : Accounts g s [] none s where
  entered j := by simp
  cycles := by simp

theorem Accounts.append {m : Search} {calls calls' : List Call} {closed : Option (List String)}
    (h : Accounts g s calls none m) (h' : Accounts g m calls' closed s') :
    Accounts g s (calls ++ calls') closed s' where
  entered j := by
    rw [List.map_append, List.count_append, ← h.entered j, ← h'.entered j]
    omega
  cycles := by
    rw [h'.cycles, h.cycles, List.filterMap_append]
    simp

/-- A call accounts for its entry, and for the cycle that its loop has closed. -/
theorem Accounts.call {c : Call} {inner : Search} {calls : List Call}
    (h : Accounts g (c.before.enter c.entry) calls (c.cycle? g) inner)
    (hwhite : c.before.color c.entry = .white) (hinner : inner.color c.entry ≠ .white) :
    Accounts g c.before (calls ++ [c]) none (inner.leave c.entry) where
  entered j := by
    have henter := whiteAt_enter hwhite j
    rw [List.map_append, List.count_append, whiteAt_leave hinner, ← henter, ← h.entered j,
      List.map_singleton]
    omega
  cycles := by
    show inner.cycles = _
    rw [h.cycles, List.filterMap_append]
    cases hcycle : c.cycle? g <;> simp [hcycle, Search.enter]

/-- **The lookup of a gray target on the path succeeds**, so its cycle is closed. -/
theorem Disciplined.close_gray (hd : s.Disciplined g) (hgray : s.color t = .gray)
    (hlead : ∀ i ∈ s.path.head?, g.Edge i t) :
    t ∈ s.path ∧ (s.close g t).cycles = s.cycles ++ [Look.cycle g ⟨t, s⟩] := by
  obtain ⟨inner, -, ⟨outer, hpath⟩, hcycles⟩ := hd.exists_loop hgray hlead
  refine ⟨(hd.gray_iff t).mp hgray, ?_⟩
  have hcut : s.path.reverse.dropWhile (· ≠ t) = t :: inner := by
    have hnodup := hd.nodup
    rw [← hpath, List.nodup_append] at hnodup
    have houter : ∀ i ∈ outer.reverse, decide (i ≠ t) = true := by
      intro i hi
      exact decide_eq_true fun he : i = t =>
        hnodup.2.2 t (by simp) i (List.mem_reverse.mp hi) he.symm
    rw [← hpath, List.reverse_append, List.reverse_reverse, List.dropWhile_append_of_pos houter,
      List.dropWhile_cons_of_neg (by simp)]
  rw [hcycles, Look.cycle, hcut]
  rfl

/-- What a loop does is what its calls account for, if that is so for each of them. -/
theorem Fits.accounts_follow
    (hcall : ∀ {t : Nat} {s : Search}, s.Fits g depth [t] → s.color t = .white →
      Accounts g s (g.callsFrom depth t s) none (visit g depth t s))
    (h : s.Fits g depth ts) :
    Accounts g s (callsAt (g.callsFrom depth) (looks (visit g depth) ts s))
      (g.closing? (looks (visit g depth) ts s)) (follow g (visit g depth) ts s) := by
  induction ts generalizing s with
  | nil => exact accounts_nil s
  | cons t rest ih =>
    unfold looks follow
    cases hc : s.color t with
    | gray =>
      obtain ⟨-, hcycles⟩ := h.disciplined.close_gray hc h.leads.head
      constructor
      · simp [callsAt, Look.color, hc, whiteAt]
      · simp [callsAt, closing?, Look.color, hc, hcycles]
    | black =>
      simpa [callsAt, closing?, Look.color, hc] using ih h.tail
    | white =>
      have hrest := (hcall h.head hc).append (ih (h.after_call hc).1)
      simpa [callsAt, closing?, Look.color, hc] using hrest

/-- **What a call does is what it and the calls inside it account for.** -/
theorem Fits.accounts_visit (h : s.Fits g depth [i]) (hwhite : s.color i = .white) :
    Accounts g s (g.callsFrom depth i s) none (visit g depth i s) := by
  induction depth generalizing i s with
  | zero =>
    obtain ⟨d, hd, -⟩ := h.enter hwhite
    omega
  | succ d ih =>
    obtain ⟨_, ⟨⟩, hinner⟩ := h.enter hwhite
    have hgray : (s.enter i).color i = .gray := color_enter_self (by rw [hwhite]; decide)
    have hfollows := follows_follow g d (g.targetsOf i) (s.enter i) hinner.whites_le
    have hstays := hfollows.color_of_ne_white (j := i) (by rw [hgray]; decide)
    have hloop := hinner.accounts_follow ih
    exact hloop.call (c := ⟨d + 1, i, s⟩) hwhite (by rw [hstays, hgray]; decide)

end Search

end SkillLint.DependencyGraph
