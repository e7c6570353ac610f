import SkillLint.Text.Digit

/-!
# Unsigned numerals

A numeral is a row of ASCII digits, with a plus sign in front or without, and it writes the number
that its digits do in base ten (`Writes`).  `readUnsigned` goes from the left and refuses a number
as soon as what it has read is too large.  **It reads exactly the numerals of numbers of
sixty-four bits** (`readUnsigned_eq_ok_iff`): leading zeros do not count, and what was too large
once does not get smaller by further digits.  Written out, different numbers have different digits
(`toString_inj`).
-/

namespace SkillLint.Text

/-- The number that digits write after the digits of `value`. -/
def valueAfter (value : Nat) (digits : List Char) : Nat :=
  digits.foldl (fun n c => n * 10 + (c.toNat - '0'.toNat)) value

/-- The text is a numeral for the number. -/
def Writes (s : List Char) (n : Nat) : Prop :=
  ∃ digits, (s = digits ∨ s = '+' :: digits) ∧ digits ≠ [] ∧ (∀ c ∈ digits, c.isDigit = true) ∧
    valueAfter 0 digits = n

variable {s : List Char} {n value : Nat}

/-- Further digits never make a number smaller. -/
theorem le_valueAfter (digits : List Char) : ∀ value, value ≤ valueAfter value digits := by
  induction digits with
  | nil => exact fun value => Nat.le_refl value
  | cons c rest ih =>
    intro value
    have hrest := ih (value * 10 + (c.toNat - '0'.toNat))
    show value ≤ valueAfter (value * 10 + (c.toNat - '0'.toNat)) rest
    omega

/-- A digit is read onto the number, as long as that does not get too large. -/
theorem readDigits_cons_of_isDigit {c : Char} {rest : List Char} (h : c.isDigit = true) :
    readDigits value (c :: rest) =
      if value * 10 + (c.toNat - '0'.toNat) ≤ maxUnsigned then
        readDigits (value * 10 + (c.toNat - '0'.toNat)) rest
      else .error .tooLarge := by
  simp only [readDigits, digitValue?, if_pos h]

theorem readDigits_cons_of_not_isDigit {c : Char} {rest : List Char} (h : ¬ c.isDigit = true) :
    readDigits value (c :: rest) = .error .invalidDigit := by
  simp only [readDigits, digitValue?, if_neg h]

/-- Digits are read onto a number that is not too large if all of them are digits and the whole is
not too large. -/
theorem readDigits_eq_ok_iff : ∀ {s : List Char} {value : Nat}, value ≤ maxUnsigned →
    (readDigits value s = .ok n ↔
      (∀ c ∈ s, c.isDigit = true) ∧ valueAfter value s = n ∧ n ≤ maxUnsigned) := by
  intro s
  induction s with
  | nil =>
    intro value hvalue
    constructor
    · intro h
      obtain rfl := Except.ok.inj h
      exact ⟨nofun, rfl, hvalue⟩
    · rintro ⟨-, hn, -⟩
      exact congrArg Except.ok hn
  | cons c rest ih =>
    intro value hvalue
    rw [List.forall_mem_cons]
    by_cases hdigit : c.isDigit = true
    · have hvalueAfter : valueAfter value (c :: rest) =
          valueAfter (value * 10 + (c.toNat - '0'.toNat)) rest := rfl
      rw [readDigits_cons_of_isDigit hdigit, hvalueAfter]
      split
      · rename_i hle
        rw [ih hle]
        exact ⟨fun ⟨hrest, hn⟩ => ⟨⟨hdigit, hrest⟩, hn⟩, fun ⟨⟨_, hrest⟩, hn⟩ => ⟨hrest, hn⟩⟩
      · rename_i hlarge
        refine ⟨fun h => (nomatch h), ?_⟩
        rintro ⟨-, rfl, hle⟩
        exact absurd (Nat.le_trans (le_valueAfter rest _) hle) hlarge
    · rw [readDigits_cons_of_not_isDigit hdigit]
      refine ⟨fun h => (nomatch h), ?_⟩
      rintro ⟨⟨hc, -⟩, -⟩
      exact absurd hc hdigit

/-- After a plus sign there are digits only. -/
theorem writes_plus_iff {rest : List Char} : Writes ('+' :: rest) n ↔
    rest ≠ [] ∧ (∀ c ∈ rest, c.isDigit = true) ∧ valueAfter 0 rest = n := by
  constructor
  · rintro ⟨digits, hs, hne, hdigits, hn⟩
    rcases hs with rfl | hs
    · exact absurd (hdigits '+' List.mem_cons_self) (by decide)
    · obtain rfl := (List.cons.inj hs).2
      exact ⟨hne, hdigits, hn⟩
  · rintro ⟨hne, hdigits, hn⟩
    exact ⟨rest, .inr rfl, hne, hdigits, hn⟩

/-- A numeral without a sign is a row of digits. -/
theorem writes_iff_of_unsigned (h : ∀ rest, s ≠ '+' :: rest) : Writes s n ↔
    s ≠ [] ∧ (∀ c ∈ s, c.isDigit = true) ∧ valueAfter 0 s = n := by
  constructor
  · rintro ⟨digits, hs, hne, hdigits, hn⟩
    rcases hs with rfl | hs
    · exact ⟨hne, hdigits, hn⟩
    · exact absurd hs (h digits)
  · rintro ⟨hne, hdigits, hn⟩
    exact ⟨s, .inl rfl, hne, hdigits, hn⟩

/-- **What is read as an unsigned number** are the numerals of numbers of sixty-four bits. -/
theorem readUnsigned_eq_ok_iff : readUnsigned s = .ok n ↔ Writes s n ∧ n < Nat.pow 2 64 := by
  have hread : ∀ digits : List Char, digits ≠ [] → (readDigits 0 digits = .ok n ↔
      (digits ≠ [] ∧ (∀ c ∈ digits, c.isDigit = true) ∧ valueAfter 0 digits = n) ∧
        n < Nat.pow 2 64) := by
    intro digits hne
    have hbound : n ≤ maxUnsigned ↔ n < Nat.pow 2 64 := by
      have hpositive : 0 < Nat.pow 2 64 := by decide
      unfold maxUnsigned
      omega
    rw [readDigits_eq_ok_iff (Nat.zero_le _), hbound, and_iff_right hne, and_assoc]
  unfold readUnsigned
  split
  case h_1 =>
    rw [writes_iff_of_unsigned fun rest => List.cons_ne_nil _ rest ∘ Eq.symm]
    exact ⟨fun h => (nomatch h), fun h => absurd rfl h.1.1⟩
  case h_2 =>
    rw [writes_plus_iff]
    exact ⟨fun h => (nomatch h), fun h => absurd rfl h.1.1⟩
  case h_3 rest hrest => rw [writes_plus_iff, hread rest fun hnil => hrest (hnil ▸ rfl)]
  case h_4 hempty _ hsigned => rw [writes_iff_of_unsigned hsigned, hread s hempty]

/-! ## Numbers as they are written -/

theorem isDigit_of_mem_toString {c : Char} (hc : c ∈ (toString n).toList) : c.isDigit = true := by
  rw [Nat.toString_eq_repr, Nat.toList_repr] at hc
  exact Nat.isDigit_of_mem_toDigits (by decide) (by decide) hc

/-- Different numbers are written with different digits. -/
theorem toString_inj {m : Nat} : toString m = toString n ↔ m = n := by
  refine ⟨fun h => ?_, congrArg toString⟩
  have hdigits : Nat.toDigits 10 m = Nat.toDigits 10 n := by
    rw [← Nat.toList_repr, ← Nat.toList_repr, ← Nat.toString_eq_repr, ← Nat.toString_eq_repr, h]
  calc m = Nat.ofDigitChars 10 (Nat.toDigits 10 m) 0 := Nat.ofDigitChars_ten_toDigits.symm
    _ = Nat.ofDigitChars 10 (Nat.toDigits 10 n) 0 := by rw [hdigits]
    _ = n := Nat.ofDigitChars_ten_toDigits

end SkillLint.Text
