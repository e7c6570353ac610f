import Mathlib.Tactic.SplitIfs
import SkillLint.Json
import SkillLint.Proofs.Text.Numeral

/-!
# JSON texts are unambiguous

A value is written so that the text shows where it ends.  A string ends at the first quote that is
not escaped, an array or object at the bracket in front of which no comma stands; only a number
needs what follows it to tell.  So the lemmas are all of one form (`Unmistakable`): if the text of a
value, with something behind it that is no digit, is also the text of another value with something
behind it, then the values are the same, and so is what follows.

The form goes through lists of parts between brackets (`enclose_append_inj`), and thereby through
all values by recursion on their structure (`unmistakable_prettyAt`).  Hence **two values with the
same text are the same value** (`pretty_inj`).
-/

namespace SkillLint.Json

open Text

variable {s t x y : List Char} {m n level : Nat}

/-! ## Strings -/

/-- The value of a hexadecimal digit in lower case. -/
def hexValue (c : Char) : Nat :=
  if c.isDigit then c.toNat - '0'.toNat else c.toNat - 'a'.toNat + 10

/-- The character that an escaped text begins with, and what follows it. -/
def unescape? : List Char → Option (Char × List Char)
  | '\\' :: 'u' :: _ :: _ :: high :: low :: rest =>
    some (Char.ofNat (16 * hexValue high + hexValue low), rest)
  | '\\' :: 'b' :: rest => some ('\x08', rest)
  | '\\' :: 'f' :: rest => some ('\x0c', rest)
  | '\\' :: 'n' :: rest => some ('\n', rest)
  | '\\' :: 'r' :: rest => some ('\r', rest)
  | '\\' :: 't' :: rest => some ('\t', rest)
  | '\\' :: c :: rest => some (c, rest)
  | c :: rest => some (c, rest)
  | [] => none

theorem hexValue_hexDigit : ∀ d < 16, hexValue (hexDigit d) = d := by decide

/-- An escaped character is read back, and nothing behind it. -/
theorem unescape?_escapeChar (c : Char) (rest : List Char) :
    unescape? (escapeChar c ++ rest) = some (c, rest) := by
  unfold escapeChar
  simp only [beq_iff_eq]
  split_ifs with hquote hbackslash hbackspace hfeed hline hreturn htab hcontrol
  · subst hquote; rfl
  · subst hbackslash; rfl
  · subst hbackspace; rfl
  · subst hfeed; rfl
  · subst hline; rfl
  · subst hreturn; rfl
  · subst htab; rfl
  · have hhigh := hexValue_hexDigit (c.toNat / 16) (by omega)
    have hlow := hexValue_hexDigit (c.toNat % 16) (by omega)
    have hcode : 16 * (c.toNat / 16) + c.toNat % 16 = c.toNat := Nat.div_add_mod _ _
    simp only [List.cons_append, List.nil_append, unescape?, hhigh, hlow, hcode, Char.ofNat_toNat]
  · rw [List.singleton_append]
    unfold unescape?
    split <;> simp_all

/-- An escaped character cannot be taken for another one. -/
theorem escapeChar_append_inj {c d : Char} (h : escapeChar c ++ x = escapeChar d ++ y) :
    c = d ∧ x = y := by
  have hread := congrArg unescape? h
  rw [unescape?_escapeChar, unescape?_escapeChar] at hread
  exact Prod.mk.inj (Option.some.inj hread)

/-- An escaped character cannot be taken for the end of a string. -/
theorem escapeChar_append_ne {c : Char} : escapeChar c ++ x ≠ '"' :: y := by
  intro h
  have hread := congrArg unescape? h
  rw [unescape?_escapeChar] at hread
  obtain ⟨rfl, -⟩ := Prod.mk.inj (Option.some.inj hread)
  cases h

/-- A string ends at the first quote that is not escaped. -/
theorem escaped_append_inj
    (h : s.flatMap escapeChar ++ '"' :: x = t.flatMap escapeChar ++ '"' :: y) :
    s = t ∧ x = y := by
  induction s generalizing t with
  | nil =>
    cases t with
    | nil => exact ⟨rfl, (List.cons.inj h).2⟩
    | cons d t =>
      rw [List.flatMap_cons, List.append_assoc] at h
      exact absurd h.symm escapeChar_append_ne
  | cons c s ih =>
    cases t with
    | nil =>
      rw [List.flatMap_cons, List.append_assoc] at h
      exact absurd h escapeChar_append_ne
    | cons d t =>
      rw [List.flatMap_cons, List.flatMap_cons, List.append_assoc, List.append_assoc] at h
      obtain ⟨rfl, hrest⟩ := escapeChar_append_inj h
      obtain ⟨rfl, hxy⟩ := ih hrest
      exact ⟨rfl, hxy⟩

theorem toList_quote (s : String) :
    (quote s).toList = '"' :: (s.toList.flatMap escapeChar ++ ['"']) := by
  simp [quote]

theorem quote_append_inj {s t : String} (h : (quote s).toList ++ x = (quote t).toList ++ y) :
    s = t ∧ x = y := by
  rw [toList_quote, toList_quote] at h
  simp only [List.cons_append, List.append_assoc, List.nil_append, List.cons.injEq, true_and] at h
  obtain ⟨hst, hxy⟩ := escaped_append_inj h
  exact ⟨String.toList_inj.mp hst, hxy⟩

/-! ## Numbers -/

/-- What follows does not continue a number. -/
def Closes (rest : List Char) : Prop := ∀ c ∈ rest.head?, c.isDigit = false

theorem closes_nil : Closes [] := nofun

theorem closes_cons {c : Char} (h : c.isDigit = false) : Closes (c :: x) := by
  rintro _ ⟨⟩
  exact h

/-- A number is all of the digits at the start. -/
theorem takeWhile_isDigit (n : Nat) (hx : Closes x) :
    ((toString n).toList ++ x).takeWhile Char.isDigit = (toString n).toList := by
  have hstop : x.takeWhile Char.isDigit = [] := by
    cases x with
    | nil => rfl
    | cons c x => exact List.takeWhile_cons_of_neg (by rw [hx c rfl]; decide)
  rw [List.takeWhile_append_of_pos fun _ => isDigit_of_mem_toString, hstop, List.append_nil]

theorem number_append_inj (hx : Closes x) (hy : Closes y)
    (h : (toString m).toList ++ x = (toString n).toList ++ y) : m = n ∧ x = y := by
  have hdigits : (toString m).toList = (toString n).toList := by
    rw [← takeWhile_isDigit m hx, h, takeWhile_isDigit n hy]
  rw [hdigits] at h
  exact ⟨toString_inj.mp (String.toList_inj.mp hdigits), List.append_cancel_left h⟩

/-! ## Parts between brackets -/

/-- The text that is written for `a`, with something behind it, is that of nothing else. -/
def Unmistakable {α : Type} (write : α → String) (a : α) : Prop :=
  ∀ ⦃b x y⦄, Closes x → Closes y → (write a).toList ++ x = (write b).toList ++ y → a = b ∧ x = y

section Parts

variable {α : Type} {f : α → String} {a : α} {as bs : List α} {before : List Char}

/-- What follows a part: a comma and the next part, or a line feed. -/
theorem closes_parts :
    Closes ((bs.flatMap fun b => ',' :: '\n' :: (before ++ (f b).toList)) ++ '\n' :: x) := by
  cases bs with
  | nil => exact closes_cons (by decide)
  | cons b bs => exact closes_cons (by decide)

/-- Parts with a comma in front of each end at the first line feed in the place of a comma. -/
theorem parts_append_inj (hf : ∀ a ∈ as, Unmistakable f a)
    (h : (as.flatMap fun a => ',' :: '\n' :: (before ++ (f a).toList)) ++ '\n' :: x =
      (bs.flatMap fun b => ',' :: '\n' :: (before ++ (f b).toList)) ++ '\n' :: y) :
    as = bs ∧ x = y := by
  induction as generalizing bs with
  | nil =>
    cases bs with
    | nil => exact ⟨rfl, (List.cons.inj h).2⟩
    | cons b bs => exact absurd (List.cons.inj h).1 (by decide)
  | cons a as ih =>
    cases bs with
    | nil => exact absurd (List.cons.inj h).1 (by decide)
    | cons b bs =>
      simp only [List.flatMap_cons, List.cons_append, List.append_assoc] at h
      have hpart := List.append_cancel_left (List.cons.inj (List.cons.inj h).2).2
      obtain ⟨rfl, hrest⟩ := hf a List.mem_cons_self closes_parts closes_parts hpart
      obtain ⟨rfl, hxy⟩ := ih (fun a ha => hf a (List.mem_cons_of_mem _ ha)) hrest
      exact ⟨rfl, hxy⟩

theorem toList_enclose_nil (opening closing : String) (level : Nat) :
    (enclose opening closing level []).toList = opening.toList ++ closing.toList := by
  simp [enclose]

/-- A separator stands before every part but the first. -/
theorem intercalate_cons (separator part : List Char) (parts : List (List Char)) :
    separator.intercalate (part :: parts) = part ++ parts.flatMap (separator ++ ·) := by
  induction parts generalizing part with
  | nil => simp
  | cons next parts ih => rw [List.intercalate_cons_cons, ih, List.flatMap_cons]; simp

theorem toList_enclose_cons (opening closing : String) (level : Nat) (a : α) (as : List α) :
    (enclose opening closing level ((a :: as).map f)).toList =
      opening.toList ++ '\n' :: ((indentation (level + 1)).toList ++ ((f a).toList ++
        ((as.flatMap fun a => ',' :: '\n' :: ((indentation (level + 1)).toList ++ (f a).toList)) ++
          '\n' :: ((indentation level).toList ++ closing.toList)))) := by
  simp [enclose, String.toList_intercalate, intercalate_cons, List.flatMap_map]

/-- **Parts between brackets are told apart** if each of them is.  The bracket that closes is no
line feed, so it does not pass for the beginning of a part. -/
theorem enclose_append_inj {opening closing : String} {bracket : Char}
    (hclosing : closing.toList = [bracket]) (hbracket : bracket ≠ '\n')
    (hf : ∀ a ∈ as, Unmistakable f a)
    (h : (enclose opening closing level (as.map f)).toList ++ x =
      (enclose opening closing level (bs.map f)).toList ++ y) : as = bs ∧ x = y := by
  cases as with
  | nil =>
    cases bs with
    | nil => exact ⟨rfl, List.append_cancel_left h⟩
    | cons b bs =>
      rw [List.map_nil, toList_enclose_nil, toList_enclose_cons, hclosing] at h
      simp only [List.append_assoc, List.cons_append, List.nil_append] at h
      exact absurd (List.cons.inj (List.append_cancel_left h)).1 hbracket
  | cons a as =>
    cases bs with
    | nil =>
      rw [List.map_nil, toList_enclose_nil, toList_enclose_cons, hclosing] at h
      simp only [List.append_assoc, List.cons_append, List.nil_append] at h
      exact absurd (List.cons.inj (List.append_cancel_left h)).1.symm hbracket
    | cons b bs =>
      rw [toList_enclose_cons, toList_enclose_cons] at h
      simp only [List.append_assoc, List.cons_append] at h
      have hpart := List.append_cancel_left (List.cons.inj (List.append_cancel_left h)).2
      obtain ⟨rfl, hrest⟩ := hf a List.mem_cons_self closes_parts closes_parts hpart
      obtain ⟨rfl, hend⟩ := parts_append_inj (fun a ha => hf a (List.mem_cons_of_mem _ ha)) hrest
      exact ⟨rfl, List.append_cancel_left (List.append_cancel_left hend)⟩

end Parts

/-! ## Values -/

/-- What kind of value something is. -/
inductive Kind where
  | null
  | bool
  | num
  | str
  | arr
  | obj

/-- The kind of a value. -/
def kind : Json → Kind
  | null => .null
  | bool _ => .bool
  | num _ => .num
  | str _ => .str
  | arr _ => .arr
  | obj _ => .obj

/-- The kind of the values that begin with a character. -/
def kindOf (c : Char) : Kind :=
  if c.isDigit then .num
  else if c = 'n' then .null
  else if c = '"' then .str
  else if c = '[' then .arr
  else if c = '\x7b' then .obj
  else .bool

/-- The text of an array or object begins with its bracket. -/
theorem head?_enclose (opening closing : String) (level : Nat) (parts : List String) {c : Char}
    (hopening : opening.toList = [c]) :
    (enclose opening closing level parts).toList.head? = some c := by
  unfold enclose
  split <;> simp [hopening]

/-- The first character of a value shows its kind. -/
theorem map_kindOf_head? (j : Json) (level : Nat) :
    (j.prettyAt level).toList.head?.map kindOf = some j.kind := by
  cases j with
  | null => simp [prettyAt, kindOf, kind]
  | bool value => cases value <;> simp [prettyAt, kindOf, kind]
  | num value =>
    show (toString value).toList.head?.map kindOf = some .num
    cases hdigits : (toString value).toList with
    | nil =>
      rw [Nat.toString_eq_repr, Nat.toList_repr] at hdigits
      exact absurd hdigits Nat.toDigits_ne_nil
    | cons c rest =>
      have hdigit : c.isDigit = true := isDigit_of_mem_toString (hdigits ▸ List.mem_cons_self)
      simp [kindOf, hdigit]
  | str value =>
    show (quote value).toList.head?.map kindOf = some .str
    rw [toList_quote]
    rfl
  | arr items =>
    rw [prettyAt, head?_enclose _ _ _ _ (by decide : "[".toList = ['['])]
    rfl
  | obj fields =>
    rw [prettyAt, head?_enclose _ _ _ _ (by decide : "\x7b".toList = ['\x7b'])]
    rfl

/-- Values whose texts begin alike are of one kind. -/
theorem kind_eq {j k : Json} (h : (j.prettyAt level).toList ++ x = (k.prettyAt level).toList ++ y) :
    j.kind = k.kind := by
  have hj := map_kindOf_head? j level
  have hk := map_kindOf_head? k level
  cases hjs : (j.prettyAt level).toList with
  | nil => rw [hjs] at hj; cases hj
  | cons c rest =>
    cases hks : (k.prettyAt level).toList with
    | nil => rw [hks] at hk; cases hk
    | cons d rest' =>
      rw [hjs, hks] at h
      obtain rfl := (List.cons.inj h).1
      rw [hjs] at hj
      rw [hks] at hk
      exact Option.some.inj (hj.symm.trans hk)

theorem prettyItems_eq_map (level : Nat) (items : List Json) :
    prettyItems level items = items.map (prettyAt level) := by
  induction items with
  | nil => rfl
  | cons j items ih => rw [prettyItems, ih]; rfl

/-- A field of an object. -/
def prettyField (level : Nat) (field : String × Json) : String :=
  quote field.1 ++ ": " ++ field.2.prettyAt level

theorem prettyFields_eq_map (level : Nat) (fields : List (String × Json)) :
    prettyFields level fields = fields.map (prettyField level) := by
  induction fields with
  | nil => rfl
  | cons field fields ih => rw [prettyFields, ih]; rfl

/-- A field is told apart from others if its value is. -/
theorem unmistakable_prettyField {field : String × Json}
    (h : Unmistakable (prettyAt level) field.2) : Unmistakable (prettyField level) field := by
  obtain ⟨key, j⟩ := field
  rintro ⟨key', k⟩ x y hx hy heq
  simp only [prettyField, String.toList_append, List.append_assoc] at heq
  obtain ⟨rfl, hrest⟩ := quote_append_inj heq
  obtain ⟨rfl, hxy⟩ := h hx hy (List.append_cancel_left hrest)
  exact ⟨rfl, hxy⟩

/-- **The text of a value is that of no other**, whatever stands behind it. -/
theorem unmistakable_prettyAt : ∀ (j : Json) (level : Nat), Unmistakable (prettyAt level) j
  | null, level => by
    intro k x y _ _ h
    cases k with
    | null => exact ⟨rfl, List.append_cancel_left h⟩
    | _ => exact nomatch kind_eq h
  | bool value, level => by
    intro k x y _ _ h
    cases k with
    | bool value' =>
      cases value <;> cases value' <;> simp_all [prettyAt]
    | _ => exact nomatch kind_eq h
  | num value, level => by
    intro k x y hx hy h
    cases k with
    | num value' =>
      obtain ⟨rfl, hxy⟩ := number_append_inj hx hy h
      exact ⟨rfl, hxy⟩
    | _ => exact nomatch kind_eq h
  | str value, level => by
    intro k x y _ _ h
    cases k with
    | str value' =>
      obtain ⟨rfl, hxy⟩ := quote_append_inj h
      exact ⟨rfl, hxy⟩
    | _ => exact nomatch kind_eq h
  | arr items, level => by
    intro k x y _ _ h
    cases k with
    | arr items' =>
      have hitems : ∀ j ∈ items, Unmistakable (prettyAt (level + 1)) j :=
        fun j _ => unmistakable_prettyAt j (level + 1)
      rw [prettyAt, prettyAt, prettyItems_eq_map, prettyItems_eq_map] at h
      obtain ⟨rfl, hxy⟩ := enclose_append_inj (by decide) (by decide : ']' ≠ '\n') hitems h
      exact ⟨rfl, hxy⟩
    | _ => exact nomatch kind_eq h
  | obj fields, level => by
    intro k x y _ _ h
    cases k with
    | obj fields' =>
      have hfields : ∀ field ∈ fields, Unmistakable (prettyField (level + 1)) field :=
        fun field _ => unmistakable_prettyField (unmistakable_prettyAt field.2 (level + 1))
      rw [prettyAt, prettyAt, prettyFields_eq_map, prettyFields_eq_map] at h
      obtain ⟨rfl, hxy⟩ := enclose_append_inj (by decide) (by decide : '\x7d' ≠ '\n') hfields h
      exact ⟨rfl, hxy⟩
    | _ => exact nomatch kind_eq h
  termination_by j => sizeOf j
  decreasing_by
    · decreasing_tactic
    · rename_i hmem
      have hfield := List.sizeOf_lt_of_mem hmem
      have hvalue : sizeOf field.2 < sizeOf field := by
        obtain ⟨key, j⟩ := field
        simp only [Prod.mk.sizeOf_spec]
        omega
      simp only [obj.sizeOf_spec]
      omega

/-- **Two values with the same text are the same value.** -/
theorem pretty_inj {j k : Json} : j.pretty = k.pretty ↔ j = k := by
  refine ⟨fun h => ?_, congrArg pretty⟩
  have htext : (j.prettyAt 0).toList ++ [] = (k.prettyAt 0).toList ++ [] :=
    congrArg (·.toList ++ []) h
  exact (unmistakable_prettyAt j 0 closes_nil closes_nil htext).1

end SkillLint.Json
