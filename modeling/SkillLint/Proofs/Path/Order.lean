import Mathlib.Data.List.Nodup
import SkillLint.Path

/-!
# The order of paths

Paths are ordered step by step.  The order is total and transitive, and two paths that come
before each other have the same steps (`components_eq_of_le`).  So **the sorted list of paths does
not depend on the order in which they were met**, as long as no two of them are spellings of the
same steps (`sort_eq_of_perm`).  Without repetitions the sorted list is strictly increasing
(`pairwise_lt_sort`).
-/

namespace SkillLint.Path

/-! ## Steps -/

theorem Component.le_refl (a : Component) : a.le a = true := by
  cases a <;> simp [Component.le]

theorem Component.le_total (a b : Component) : a.le b = true ∨ b.le a = true := by
  cases a <;> cases b <;> simp [Component.le, Component.rank, String.le_total]

theorem Component.le_trans {a b c : Component} (hab : a.le b = true) (hbc : b.le c = true) :
    a.le c = true := by
  cases a <;> cases b <;> cases c <;> simp_all [Component.le, Component.rank]
  exact String.le_trans hab hbc

theorem Component.le_antisymm {a b : Component} (hab : a.le b = true) (hba : b.le a = true) :
    a = b := by
  cases a <;> cases b <;> simp_all [Component.le, Component.rank]
  exact String.le_antisymm hab hba

/-! ## Lists of steps -/

theorem componentsLe_total : ∀ as bs : List Component,
    componentsLe as bs = true ∨ componentsLe bs as = true
  | [], _ => .inl rfl
  | _ :: _, [] => .inr rfl
  | a :: as, b :: bs => by
      by_cases hab : a = b
      · simpa [componentsLe, hab] using componentsLe_total as bs
      · simpa [componentsLe, hab, Ne.symm hab] using Component.le_total a b

/-- Where two lists are in order, the first steps are the same and the rest is in order, or the
first steps are in order. -/
theorem componentsLe_cons_iff {a b : Component} {as bs : List Component} :
    componentsLe (a :: as) (b :: bs) = true ↔
      a = b ∧ componentsLe as bs = true ∨ a ≠ b ∧ a.le b = true := by
  by_cases hab : a = b <;> simp [componentsLe, hab]

theorem componentsLe_trans : ∀ {as bs cs : List Component},
    componentsLe as bs = true → componentsLe bs cs = true → componentsLe as cs = true
  | [], _, _, _, _ => rfl
  | _ :: _, [], _, hab, _ => by cases hab
  | _ :: _, _ :: _, [], _, hbc => by cases hbc
  | a :: as, b :: bs, c :: cs, hab, hbc => by
      rw [componentsLe_cons_iff] at hab hbc ⊢
      rcases hab with ⟨rfl, hab⟩ | ⟨hne, hab⟩
      · rcases hbc with ⟨rfl, hbc⟩ | hbc
        · exact .inl ⟨rfl, componentsLe_trans hab hbc⟩
        · exact .inr hbc
      · rcases hbc with ⟨rfl, -⟩ | ⟨-, hbc⟩
        · exact .inr ⟨hne, hab⟩
        · refine .inr ⟨?_, Component.le_trans hab hbc⟩
          rintro rfl
          exact hne (Component.le_antisymm hab hbc)

theorem componentsLe_antisymm : ∀ {as bs : List Component},
    componentsLe as bs = true → componentsLe bs as = true → as = bs
  | [], [], _, _ => rfl
  | [], _ :: _, _, hba => by cases hba
  | _ :: _, [], hab, _ => by cases hab
  | a :: as, b :: bs, hab, hba => by
      rw [componentsLe_cons_iff] at hab hba
      rcases hab with ⟨rfl, hab⟩ | ⟨hne, hab⟩
      · rcases hba with ⟨-, hba⟩ | ⟨hne, -⟩
        · rw [componentsLe_antisymm hab hba]
        · exact absurd rfl hne
      · rcases hba with ⟨rfl, -⟩ | ⟨-, hba⟩
        · exact absurd rfl hne
        · exact absurd (Component.le_antisymm hab hba) hne

/-- Lists that go on differently after the same steps are in the order of their next steps. -/
theorem componentsLe_append_singleton (as : List Component) (a b : Component) :
    componentsLe (as ++ [a]) (as ++ [b]) = a.le b := by
  induction as with
  | nil => by_cases hab : a = b <;> simp [componentsLe, hab, Component.le_refl]
  | cons c cs ih => simpa [componentsLe] using ih

/-! ## Paths -/

variable {p q r : Path} {paths others : List Path}

theorem le_total (p q : Path) : p.le q = true ∨ q.le p = true :=
  componentsLe_total p.components q.components

theorem le_trans (hpq : p.le q = true) (hqr : q.le r = true) : p.le r = true :=
  componentsLe_trans hpq hqr

/-- Paths that come before each other have the same steps. -/
theorem components_eq_of_le (hpq : p.le q = true) (hqp : q.le p = true) :
    p.components = q.components :=
  componentsLe_antisymm hpq hqp

/-- The path comes before the other, and not the other way round. -/
def Lt (p q : Path) : Prop := p.le q = true ∧ p.components ≠ q.components

/-- No two of the paths are spellings of the same steps. -/
def DistinctSteps (paths : List Path) : Prop := (paths.map components).Nodup

theorem sort_perm (paths : List Path) : (sort paths).Perm paths :=
  List.mergeSort_perm paths le

@[simp] theorem mem_sort : p ∈ sort paths ↔ p ∈ paths := (sort_perm paths).mem_iff

theorem pairwise_sort (paths : List Path) : (sort paths).Pairwise fun p q => p.le q = true := by
  rw [sort]
  refine @List.pairwise_mergeSort Path le (fun _ _ _ hpq hqr => le_trans hpq hqr)
    (fun p q => ?_) paths
  rw [Bool.or_eq_true]
  exact le_total p q

theorem DistinctSteps.nodup (h : DistinctSteps paths) : paths.Nodup :=
  List.Nodup.of_map components h

theorem DistinctSteps.perm (h : DistinctSteps paths) (hperm : paths.Perm others) :
    DistinctSteps others :=
  (hperm.map components).nodup_iff.mp h

theorem DistinctSteps.sublist (h : DistinctSteps paths) (hsub : others.Sublist paths) :
    DistinctSteps others :=
  List.Nodup.sublist (hsub.map components) h

/-- Spellings of the same steps are the same path. -/
theorem DistinctSteps.eq_of_mem (h : DistinctSteps paths) (hp : p ∈ paths) (hq : q ∈ paths)
    (heq : p.components = q.components) : p = q :=
  List.inj_on_of_nodup_map h hp hq heq

/-- **Sorting forgets the order in which paths were met**, if no two of them are spellings of the
same steps. -/
theorem sort_eq_of_perm (h : DistinctSteps paths) (hperm : paths.Perm others) :
    sort paths = sort others := by
  refine List.Perm.eq_of_pairwise (fun p q hp hq hpq hqp => ?_) (pairwise_sort paths)
    (pairwise_sort others) ((sort_perm paths).trans (hperm.trans (sort_perm others).symm))
  exact h.eq_of_mem (mem_sort.mp hp) (hperm.mem_iff.mpr (mem_sort.mp hq))
    (components_eq_of_le hpq hqp)

theorem Lt.asymm (h : p.Lt q) : ¬ q.Lt p := fun h' => h.2 (components_eq_of_le h.1 h'.1)

theorem nodup_of_pairwise_lt (h : paths.Pairwise Lt) : paths.Nodup :=
  h.imp fun hlt heq => hlt.2 (congrArg components heq)

/-- **Strictly increasing paths are determined by which they are.** -/
theorem eq_of_mem_iff (h : paths.Pairwise Lt) (h' : others.Pairwise Lt)
    (hmem : ∀ p, p ∈ paths ↔ p ∈ others) : paths = others := by
  have hperm : paths.Perm others := (List.perm_ext_iff_of_nodup (nodup_of_pairwise_lt h)
    (nodup_of_pairwise_lt h')).mpr hmem
  exact hperm.eq_of_pairwise (fun p q _ _ hpq hqp => absurd hqp hpq.asymm) h h'

/-- **One more path is inserted** into strictly increasing paths, and the others stay as they
are. -/
theorem exists_eq_insert (h : paths.Pairwise Lt) (h' : others.Pairwise Lt) (hnew : p ∉ paths)
    (hmem : ∀ q, q ∈ others ↔ q ∈ paths ∨ q = p) :
    ∃ before after, paths = before ++ after ∧ others = before ++ p :: after := by
  obtain ⟨before, after, rfl⟩ := List.append_of_mem ((hmem p).mpr (.inr rfl))
  have hrest : (before ++ after).Sublist (before ++ p :: after) :=
    (List.Sublist.refl before).append (List.sublist_cons_self p after)
  have hp : p ∉ before ++ after :=
    (List.nodup_cons.mp (List.nodup_middle.mp (nodup_of_pairwise_lt h'))).1
  refine ⟨before, after, eq_of_mem_iff h (h'.sublist hrest) fun q => ?_, rfl⟩
  by_cases heq : q = p
  · exact heq ▸ iff_of_false hnew hp
  · have hq := hmem q
    simp only [List.mem_append, List.mem_cons, heq, false_or, or_false] at hq ⊢
    exact hq.symm

/-- Sorted paths are strictly increasing, if no two of them are spellings of the same steps. -/
theorem pairwise_lt_sort (h : DistinctSteps paths) : (sort paths).Pairwise Lt := by
  have hne : (sort paths).Pairwise fun p q => p.components ≠ q.components :=
    List.pairwise_map.mp (h.perm (sort_perm paths).symm)
  exact (pairwise_sort paths).and hne

end SkillLint.Path
