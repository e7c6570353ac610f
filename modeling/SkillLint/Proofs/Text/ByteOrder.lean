import Mathlib.Data.String.Basic

/-!
# Texts in the order of their bytes

Texts are compared character by character.  The UTF-8 form of a greater character starts with the
same bytes and goes on with a greater one (`precedes_utf8EncodeChar`), so **the bytes of texts are
in the order of the texts** (`bytes_lt_of_lt`).
-/

namespace SkillLint.Text

/-- The bytes of the UTF-8 form of a text. -/
def bytes (s : String) : List UInt8 := s.toUTF8.data.toList

theorem bytes_eq (s : String) : bytes s = s.toList.flatMap String.utf8EncodeChar := by
  rw [bytes, String.toUTF8_eq_toByteArray, ← String.utf8Encode_toList, List.utf8Encode]
  simp

/-- Bytes that go on with a smaller byte after some that both start with. -/
inductive Precedes : List UInt8 → List UInt8 → Prop where
  | head {x y : UInt8} {xs ys : List UInt8} (h : x < y) : Precedes (x :: xs) (y :: ys)
  | tail {x : UInt8} {xs ys : List UInt8} (h : Precedes xs ys) : Precedes (x :: xs) (x :: ys)

/-- What follows does not matter any more. -/
theorem Precedes.append_lt {xs ys : List UInt8} (h : Precedes xs ys) (s t : List UInt8) :
    xs ++ s < ys ++ t := by
  induction h with
  | head h => exact List.Lex.rel h
  | tail h ih => exact List.Lex.cons ih

theorem Precedes.ofNat_head {m n : Nat} (hn : n < 256) (h : m < n) (xs ys : List UInt8) :
    Precedes (UInt8.ofNat m :: xs) (UInt8.ofNat n :: ys) := by
  refine .head ?_
  rw [UInt8.lt_iff_toNat_lt, UInt8.toNat_ofNat_of_lt' hn, UInt8.toNat_ofNat_of_lt' (h.trans hn)]
  exact h

theorem Precedes.ofNat_cons {m n : Nat} {xs ys : List UInt8} (hn : n < 256) (hle : m ≤ n)
    (h : m = n → Precedes xs ys) : Precedes (UInt8.ofNat m :: xs) (UInt8.ofNat n :: ys) := by
  rcases Nat.lt_or_eq_of_le hle with hlt | rfl
  · exact ofNat_head hn hlt xs ys
  · exact .tail (h rfl)

theorem toNat_val_lt (c : Char) : c.val.toNat < 0x110000 := by
  rcases c.valid with h | ⟨-, h⟩
  · exact Nat.lt_trans h (by decide)
  · exact h

/-- **The bytes of characters are in the order of the characters.**  More bytes start with a
greater one; of as many bytes each holds some digits of the character, the leading ones first. -/
theorem precedes_utf8EncodeChar {c d : Char} (h : c < d) :
    Precedes (String.utf8EncodeChar c) (String.utf8EncodeChar d) := by
  have hlt : c.val.toNat < d.val.toNat := h
  have hd := toNat_val_lt d
  simp only [String.utf8EncodeChar]
  generalize c.val.toNat = m at hlt
  generalize d.val.toNat = n at hlt hd
  split
  case isTrue hm =>
    split
    · exact .ofNat_head (by omega) hlt _ _
    · split
      · exact .ofNat_head (by omega) (by omega) _ _
      · split <;> exact .ofNat_head (by omega) (by omega) _ _
  case isFalse hm =>
    rw [if_neg (by omega : ¬ n ≤ 0x7f)]
    split
    case isTrue hm =>
      split
      · refine .ofNat_cons (by omega) (by omega) fun _ => ?_
        exact .ofNat_head (by omega) (by omega) _ _
      · split <;> exact .ofNat_head (by omega) (by omega) _ _
    case isFalse hm =>
      rw [if_neg (by omega : ¬ n ≤ 0x7ff)]
      split
      case isTrue hm =>
        split
        · refine .ofNat_cons (by omega) (by omega) fun _ => ?_
          refine .ofNat_cons (by omega) (by omega) fun _ => ?_
          exact .ofNat_head (by omega) (by omega) _ _
        · exact .ofNat_head (by omega) (by omega) _ _
      case isFalse hm =>
        rw [if_neg (by omega : ¬ n ≤ 0xffff)]
        refine .ofNat_cons (by omega) (by omega) fun _ => ?_
        refine .ofNat_cons (by omega) (by omega) fun _ => ?_
        refine .ofNat_cons (by omega) (by omega) fun _ => ?_
        exact .ofNat_head (by omega) (by omega) _ _

theorem flatMap_utf8EncodeChar_lt {cs ds : List Char} (h : List.Lex (· < ·) cs ds) :
    cs.flatMap String.utf8EncodeChar < ds.flatMap String.utf8EncodeChar := by
  induction h with
  | nil =>
    rename_i d ds
    obtain ⟨x, xs, hx⟩ := List.exists_cons_of_ne_nil (String.utf8EncodeChar_ne_nil (c := d))
    rw [List.flatMap_nil, List.flatMap_cons, hx]
    exact List.Lex.nil
  | rel h =>
    rw [List.flatMap_cons, List.flatMap_cons]
    exact (precedes_utf8EncodeChar h).append_lt _ _
  | cons h ih =>
    rw [List.flatMap_cons, List.flatMap_cons]
    exact List.Lex.append_left _ ih _

/-- **Texts are in the order of their bytes.** -/
theorem bytes_lt_of_lt {s t : String} (h : s < t) : bytes s < bytes t := by
  rw [bytes_eq, bytes_eq]
  exact flatMap_utf8EncodeChar_lt h

end SkillLint.Text
