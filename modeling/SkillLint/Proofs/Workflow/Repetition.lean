import Mathlib.Data.List.Basic

/-!
# Names that are listed twice

A name is repeated from the place on at which it stands for the second time (`SecondAt`).
`ListsRepeated` says of a list that it holds the repeated names of another one, each once, in the
order of their second places; the empty name is no name.

`repeatedIn` goes over names with those before them at hand, and takes a name exactly when one of
these is the same.  **It lists the repeated names** (`listsRepeated_repeatedIn`), because a second
place lies before a given one exactly if the name stands twice before it (`SecondAt.lt_iff`).
-/

namespace SkillLint.Workflow

variable {names earlier rest : List String} {name : String} {i k : Nat}

/-- The name stands for the second time at place `i`. -/
def SecondAt (names : List String) (name : String) (i : Nat) : Prop :=
  names[i]? = some name ∧ (names.take i).count name = 1

/-- **The repeated names**, the empty one apart. -/
structure ListsRepeated (names repeated : List String) : Prop where
  nodup : repeated.Nodup
  mem_iff : ∀ name, name ∈ repeated ↔ name ≠ "" ∧ 2 ≤ names.count name
  ordered : repeated.Pairwise fun a b => ∀ i j, SecondAt names a i → SecondAt names b j → i < j

/-- The names of `rest` that have been there exactly once before, in `earlier` or in `rest`. -/
def repeatedIn (earlier : List String) : List String → List String
  | [] => []
  | name :: rest =>
    (if name ≠ "" ∧ earlier.count name = 1 then [name] else []) ++
      repeatedIn (earlier ++ [name]) rest

/-! ## Second places -/

/-- **A second place lies before place `k`** exactly if the name stands twice before `k`. -/
theorem SecondAt.lt_iff (h : SecondAt names name i) : i < k ↔ 2 ≤ (names.take k).count name := by
  obtain ⟨hname, hone⟩ := h
  have hcount : (names.take (i + 1)).count name = 2 := by
    rw [List.take_add_one, hname, List.count_append, hone]
    simp
  have hle : ∀ {m n : Nat}, m ≤ n → (names.take m).count name ≤ (names.take n).count name :=
    fun hmn => (List.take_prefix_take_left hmn).sublist.count_le name
  constructor
  · intro hlt
    have := hle (show i + 1 ≤ k from hlt)
    omega
  · intro htwo
    by_contra hge
    have := hle (Nat.le_of_not_lt hge)
    omega

/-! ## The repeated names -/

theorem repeatedIn_append (earlier : List String) : ∀ a b : List String,
    repeatedIn earlier (a ++ b) = repeatedIn earlier a ++ repeatedIn (earlier ++ a) b
  | [], b => by rw [List.append_nil]; rfl
  | name :: a, b => by
      rw [List.cons_append, repeatedIn, repeatedIn, repeatedIn_append (earlier ++ [name]) a b,
        List.append_assoc, List.append_assoc]
      rfl

/-- What is listed has not been repeated earlier, and is repeated by the end. -/
theorem mem_repeatedIn_iff : ∀ {rest earlier : List String}, name ∈ repeatedIn earlier rest ↔
    name ≠ "" ∧ earlier.count name ≤ 1 ∧ 2 ≤ (earlier ++ rest).count name
  | [], earlier => by
      rw [List.append_nil]
      refine ⟨fun h => absurd h List.not_mem_nil, ?_⟩
      rintro ⟨-, hle, hge⟩
      omega
  | n :: rest, earlier => by
      have hfirst : name ∈ (if n ≠ "" ∧ earlier.count n = 1 then [n] else []) ↔
          name = n ∧ n ≠ "" ∧ earlier.count n = 1 := by
        split <;> simp_all
      have hnext : (earlier ++ [n]).count name =
          earlier.count name + if name = n then 1 else 0 := by
        rw [List.count_append, List.count_singleton]
        exact congrArg (earlier.count name + ·) (if_congr (beq_iff_eq.trans eq_comm) rfl rfl)
      rw [repeatedIn, List.mem_append, hfirst, mem_repeatedIn_iff, ← List.append_cons, hnext]
      by_cases hn : name = n
      · subst hn
        rw [if_pos rfl]
        constructor
        · rintro (⟨-, hne, hone⟩ | ⟨hne, hle, htwo⟩)
          · refine ⟨hne, by omega, ?_⟩
            rw [List.count_append, List.count_cons_self]
            omega
          · exact ⟨hne, by omega, htwo⟩
        · rintro ⟨hne, hle, htwo⟩
          by_cases hone : earlier.count name = 1
          · exact .inl ⟨rfl, hne, hone⟩
          · exact .inr ⟨hne, by omega, htwo⟩
      · rw [if_neg hn, Nat.add_zero]
        exact ⟨fun h => h.resolve_left fun hc => hn hc.1, .inr⟩

theorem nodup_repeatedIn : ∀ rest earlier : List String, (repeatedIn earlier rest).Nodup
  | [], _ => List.nodup_nil
  | name :: rest, earlier => by
      have ih := nodup_repeatedIn rest (earlier ++ [name])
      rw [repeatedIn]
      split
      · rename_i hrepeated
        refine List.nodup_cons.mpr ⟨fun hmem => ?_, ih⟩
        have hle := (mem_repeatedIn_iff.mp hmem).2.1
        rw [List.count_append, hrepeated.2, List.count_singleton_self] at hle
        omega
      · exact ih

/-- The names are listed in the order of their second places. -/
theorem pairwise_repeatedIn : ∀ rest earlier : List String,
    (repeatedIn earlier rest).Pairwise fun a b =>
      ∀ i j, SecondAt (earlier ++ rest) a i → SecondAt (earlier ++ rest) b j → i < j
  | [], _ => List.Pairwise.nil
  | name :: rest, earlier => by
      have ih := pairwise_repeatedIn rest (earlier ++ [name])
      rw [← List.append_cons] at ih
      rw [repeatedIn]
      split
      · rename_i hrepeated
        refine List.pairwise_cons.mpr ⟨fun b hb i j hi hj => ?_, ih⟩
        -- the place of `name` parts the two: it is a second place itself, that of `b` is behind it
        have htake : (earlier ++ name :: rest).take (earlier.length + 1) = earlier ++ [name] := by
          rw [List.append_cons]
          exact List.take_left' List.length_append
        have hcount : (earlier ++ [name]).count name = 2 := by
          rw [List.count_append, hrepeated.2, List.count_singleton_self]
        have hat : i < earlier.length + 1 := by
          rw [hi.lt_iff, htake]
          omega
        have hbehind : ¬ j < earlier.length + 1 := by
          have hle := (mem_repeatedIn_iff.mp hb).2.1
          rw [hj.lt_iff, htake]
          omega
        omega
      · exact ih

/-- Nothing is repeated among distinct names. -/
theorem repeatedIn_eq_nil_iff (names : List String) :
    repeatedIn [] names = [] ↔ (names.filter (· ≠ "")).Nodup := by
  rw [List.eq_nil_iff_forall_not_mem, List.nodup_iff_count]
  refine forall_congr' fun name => ?_
  rw [mem_repeatedIn_iff]
  by_cases hname : name = ""
  · subst hname
    have hzero : (names.filter (· ≠ "")).count "" = 0 :=
      List.count_eq_zero.mpr fun hmem => absurd (List.mem_filter.mp hmem).2 (by simp)
    rw [hzero]
    exact ⟨fun _ => Nat.zero_le 1, fun _ h => h.1 rfl⟩
  · rw [List.count_filter (by simpa using hname)]
    constructor
    · intro hnone
      by_contra hmore
      exact hnone ⟨hname, Nat.zero_le 1, Nat.lt_of_not_le hmore⟩
    · rintro hle ⟨-, -, htwo⟩
      exact absurd (Nat.le_trans htwo hle) (by decide)

/-- **The names that come for the second time are the repeated ones.** -/
theorem listsRepeated_repeatedIn (names : List String) :
    ListsRepeated names (repeatedIn [] names) where
  nodup := nodup_repeatedIn names []
  mem_iff name := by
    rw [mem_repeatedIn_iff]
    exact and_congr_right fun _ => and_iff_right (Nat.zero_le 1)
  ordered := pairwise_repeatedIn names []

end SkillLint.Workflow
