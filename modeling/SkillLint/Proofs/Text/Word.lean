import SkillLint.Text.Blank
import SkillLint.Text.Digit
import SkillLint.Text.Word

/-!
# Words, blanks and digits

What `dropWord?` drops is a text that folds to the word (`dropWord?_eq_some_iff`).  The texts that
fold to a word of small letters are not all of ASCII, but **none of their characters is a blank or a
digit** (`isBlank_of_foldCase`, `isDecimalDigit_of_foldCase`).  Blanks are no digits either
(`isDecimalDigit_of_isBlank`), so that a number, a gap and a word have nothing in common.
-/

namespace SkillLint.Text

variable {word s r : List Char} {c : Char}

theorem dropWord?_eq_some_iff :
    dropWord? word s = some r ↔ ∃ w, w.map foldCase = word ∧ s = w ++ r := by
  rw [dropWord?]
  constructor
  · intro h
    split at h
    · rename_i hfold
      cases h
      exact ⟨_, hfold, (List.take_append_drop _ s).symm⟩
    · cases h
  · rintro ⟨w, rfl, rfl⟩
    rw [List.length_map, List.take_left, List.drop_left, if_pos rfl]

/-- There is no digit in a range of code points that meets no block of digits. -/
theorem isDecimalDigit_of_between {a b : Nat}
    (h : (decimalZeros.all fun z => z + 10 ≤ a || b < z) = true) (ha : a ≤ c.toNat)
    (hb : c.toNat ≤ b) : isDecimalDigit c = false := by
  rw [isDecimalDigit, List.any_eq_false]
  intro z hz hdigit
  have hbeside := List.all_eq_true.mp h z hz
  simp only [Bool.or_eq_true, Bool.and_eq_true, decide_eq_true_eq] at hbeside hdigit
  omega

theorem isDecimalDigit_of_isBlank (h : isBlank c = true) : isDecimalDigit c = false := by
  have hranges : c.toNat ≤ 0x20 ∨ (0x85 ≤ c.toNat ∧ c.toNat ≤ 0xA0) ∨ c.toNat = 0x1680 ∨
      (0x2000 ≤ c.toNat ∧ c.toNat ≤ 0x3000) := by
    simp only [isBlank, Bool.or_eq_true, Bool.and_eq_true, decide_eq_true_eq, beq_iff_eq] at h
    omega
  rcases hranges with hb | ⟨ha, hb⟩ | heq | ⟨ha, hb⟩
  · exact isDecimalDigit_of_between (by decide) (Nat.zero_le _) hb
  · exact isDecimalDigit_of_between (by decide) ha hb
  · exact isDecimalDigit_of_between (by decide) (Nat.le_of_eq heq.symm) (Nat.le_of_eq heq)
  · exact isDecimalDigit_of_between (by decide) ha hb

/-- Small letters are the folds of the letters of ASCII, and of two more. -/
theorem ranges_of_foldCase (h : (foldCase c).isLower = true) :
    (0x41 ≤ c.toNat ∧ c.toNat ≤ 0x7A) ∨ c.toNat = 0x17F ∨ c.toNat = 0x212A := by
  rw [foldCase] at h
  split at h
  · rename_i hlong
    exact .inr (.inl (by rw [beq_iff_eq.mp hlong]; rfl))
  split at h
  · rename_i hkelvin
    exact .inr (.inr (by rw [beq_iff_eq.mp hkelvin]; rfl))
  refine .inl ?_
  have hvalue : c.toNat = c.val.toNat := rfl
  by_cases hupper : c.val ≥ 'A'.val ∧ c.val ≤ 'Z'.val
  · rw [ge_iff_le, UInt32.le_iff_toNat_le, UInt32.le_iff_toNat_le] at hupper
    have hfirst : ('A'.val).toNat = 0x41 := rfl
    have hlast : ('Z'.val).toNat = 0x5A := rfl
    omega
  · have hself : c.toLower = c := dif_neg hupper
    rw [hself] at h
    have hlower : (decide ('a'.val ≤ c.val) && decide (c.val ≤ 'z'.val)) = true := h
    rw [Bool.and_eq_true, decide_eq_true_iff, decide_eq_true_iff, UInt32.le_iff_toNat_le,
      UInt32.le_iff_toNat_le] at hlower
    have hfirst : ('a'.val).toNat = 0x61 := rfl
    have hlast : ('z'.val).toNat = 0x7A := rfl
    omega

theorem isBlank_of_foldCase (h : (foldCase c).isLower = true) : isBlank c = false := by
  rw [← Bool.not_eq_true]
  intro hblank
  have hranges := ranges_of_foldCase h
  simp only [isBlank, Bool.or_eq_true, Bool.and_eq_true, decide_eq_true_eq, beq_iff_eq] at hblank
  omega

theorem isDecimalDigit_of_foldCase (h : (foldCase c).isLower = true) :
    isDecimalDigit c = false := by
  rcases ranges_of_foldCase h with ⟨ha, hb⟩ | heq | heq
  · exact isDecimalDigit_of_between (by decide) ha hb
  · exact isDecimalDigit_of_between (by decide) (Nat.le_of_eq heq.symm) (Nat.le_of_eq heq)
  · exact isDecimalDigit_of_between (by decide) (Nat.le_of_eq heq.symm) (Nat.le_of_eq heq)

end SkillLint.Text
