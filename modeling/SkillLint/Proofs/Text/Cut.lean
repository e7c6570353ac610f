import SkillLint.Text.Search

/-!
# The first occurrence of a text

`cutAt? p` searches from the left, so **it cuts at the first occurrence of `p`, and only if
there is one** (`cutAt?_eq_some_iff`, `cutAt?_eq_none_iff`).  That an occurrence is the
first is a fact about what stands before its last character: `p` does not occur there, not
even where it would overlap itself.

An occurrence never reaches across a character that is not in it (`infix_append_cons_iff`),
so a text of several lines is searched line by line.
-/

namespace SkillLint.Text

variable {p s b a : List Char}

theorem dropPrefix?_append (p s : List Char) : dropPrefix? p (p ++ s) = some s :=
  dropPrefix?_eq_some_iff.mpr rfl

theorem dropPrefix?_eq_none_iff : dropPrefix? p s = none ↔ ¬ p <+: s := by
  rw [Option.eq_none_iff_forall_ne_some]
  constructor
  · rintro h ⟨r, rfl⟩
    exact h r (dropPrefix?_eq_some_iff.mpr rfl)
  · rintro h r hr
    exact h ⟨r, (dropPrefix?_eq_some_iff.mp hr).symm⟩

theorem startsWith_eq_true_iff : startsWith p s = true ↔ p <+: s := by
  rw [startsWith, Option.isSome_iff_exists]
  exact exists_congr fun r => dropPrefix?_eq_some_iff.trans eq_comm

/-- A text is too long to occur in itself without its last character. -/
theorem not_infix_dropLast (hp : p ≠ []) : ¬ p <:+: p.dropLast := by
  intro h
  have hlength := h.length_le
  have hpositive := List.length_pos_iff.mpr hp
  rw [List.length_dropLast] at hlength
  omega

/-- The text that ends before the last character of an occurrence is a start of the text
that goes on after it. -/
theorem append_dropLast_prefix_append : b ++ p.dropLast <+: b ++ p ++ a := by
  rw [List.append_assoc]
  exact (List.prefix_append_right_inj b).mpr
    ((List.dropLast_prefix p).trans (List.prefix_append p a))

/-- Nothing that was passed over is an occurrence. -/
theorem not_infix_of_cutAt? (hp : p ≠ []) (h : cutAt? p s = some (b, a)) :
    ¬ p <:+: b ++ p.dropLast := by
  induction s generalizing b with
  | nil =>
    have hnone : dropPrefix? p [] = none := dropPrefix?_eq_none_iff.mpr (by simpa using hp)
    rw [cutAt?, hnone] at h
    cases h
  | cons c s ih =>
    rw [cutAt?] at h
    cases hdrop : dropPrefix? p (c :: s) with
    | some r =>
      rw [hdrop] at h
      cases h
      exact not_infix_dropLast hp
    | none =>
      rw [hdrop] at h
      obtain ⟨⟨before, after⟩, hcut, heq⟩ := Option.map_eq_some_iff.mp h
      cases heq
      intro hinfix
      rcases List.infix_cons_iff.mp hinfix with hhead | hlater
      · have hs : before ++ p.dropLast <+: s := eq_of_cutAt? hcut ▸ append_dropLast_prefix_append
        exact dropPrefix?_eq_none_iff.mp hdrop
          (hhead.trans (List.cons_prefix_cons.mpr ⟨rfl, hs⟩))
      · exact ih hcut hlater

/-- An occurrence is passed over only if there is one before it. -/
theorem cutAt?_append (hp : p ≠ []) (hfirst : ¬ p <:+: b ++ p.dropLast) :
    cutAt? p (b ++ p ++ a) = some (b, a) := by
  induction b with
  | nil =>
    obtain ⟨c, p, rfl⟩ := List.exists_cons_of_ne_nil hp
    have hdrop : dropPrefix? (c :: p) (c :: (p ++ a)) = some a := dropPrefix?_eq_some_iff.mpr rfl
    rw [List.nil_append, List.cons_append, cutAt?, hdrop]
  | cons c b ih =>
    have hdrop : dropPrefix? p (c :: (b ++ p ++ a)) = none := by
      rw [dropPrefix?_eq_none_iff]
      intro hhead
      -- an occurrence at the start would end before the last character of this one
      have hstart : p <+: c :: b ++ p.dropLast := by
        refine List.prefix_of_prefix_length_le hhead
          (List.cons_prefix_cons.mpr ⟨rfl, append_dropLast_prefix_append⟩) ?_
        simp only [List.length_append, List.length_cons, List.length_dropLast]
        omega
      exact hfirst hstart.isInfix
    have hrest := ih fun hinfix => hfirst (List.infix_cons hinfix)
    rw [List.cons_append, List.cons_append, cutAt?, hdrop, hrest]
    rfl

/-- **A cut is at the first occurrence.** -/
theorem cutAt?_eq_some_iff (hp : p ≠ []) :
    cutAt? p s = some (b, a) ↔ s = b ++ p ++ a ∧ ¬ p <:+: b ++ p.dropLast := by
  constructor
  · intro h
    exact ⟨eq_of_cutAt? h, not_infix_of_cutAt? hp h⟩
  · rintro ⟨rfl, hfirst⟩
    exact cutAt?_append hp hfirst

/-- **There is no cut** if and only if there is no occurrence. -/
theorem cutAt?_eq_none_iff : cutAt? p s = none ↔ ¬ p <:+: s := by
  induction s with
  | nil =>
    rw [cutAt?, Option.map_eq_none_iff, dropPrefix?_eq_none_iff, List.infix_nil, List.prefix_nil]
  | cons c s ih =>
    rw [cutAt?, List.infix_cons_iff, not_or, ← ih, ← dropPrefix?_eq_none_iff]
    cases dropPrefix? p (c :: s) <;> simp

/-- **An occurrence stays on one side** of a character that is not in it. -/
theorem infix_append_cons_iff {c : Char} (hc : c ∉ p) :
    p <:+: a ++ c :: b ↔ p <:+: a ∨ p <:+: b := by
  constructor
  · rintro ⟨u, v, h⟩
    obtain ⟨w, rfl, -⟩ | ⟨w, hup, hw⟩ := List.append_eq_append_iff.mp h
    · exact .inl ⟨u, w, rfl⟩
    cases w with
    | nil => exact .inl ⟨u, [], by simpa using hup⟩
    | cons d w =>
      obtain ⟨rfl, rfl⟩ := List.cons.inj hw
      obtain ⟨x, -, rfl⟩ | ⟨x, -, hx⟩ := List.append_eq_append_iff.mp hup
      · exact absurd (List.mem_append_right x List.mem_cons_self) hc
      · cases x with
        | nil =>
          have hp : c :: w = p := hx
          exact absurd (hp ▸ List.mem_cons_self) hc
        | cons d x =>
          obtain ⟨-, rfl⟩ := List.cons.inj hx
          exact .inr ⟨x, v, rfl⟩
  · rintro (h | h)
    · exact List.infix_append_of_infix_left h
    · exact List.infix_append_of_infix_right (List.infix_cons h)

end SkillLint.Text
