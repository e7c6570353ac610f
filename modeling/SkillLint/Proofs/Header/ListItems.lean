import SkillLint.Proofs.Header.RoundTrip

/-!
# What is left of the items of a list

A value that is written between double quotes comes back without them, under a key of its own and
among the entries of a block.  Items of a list are read in another way.  Their quotes are not taken
off, and what is taken off at their start is not one hyphen but every hyphen and space (`remnant`).
So `- -5` is read as `5`, and `- "a"` as `"a"` with its quotes.

**A list comes back if and only if none of its items is quoted or starts with a hyphen**
(`get?_listHeader_iff`).
-/

namespace SkillLint.Header.Restricted

open SkillLint.Text
open HeaderField (pair)

variable {key : List Char} {items : List Scalar} {item : Scalar}

/-- The item has a text, trimmed and on one line.  Without double quotes around it, it does not look
as if it had them. -/
def IsListed (item : Scalar) : Prop := item.text ≠ [] ∧ Trimmed item.text ∧ IsScalar item

instance (item : Scalar) : Decidable (IsListed item) := inferInstanceAs (Decidable (_ ∧ _))

/-- A key, and below it a list of items, each as it is or between double quotes. -/
def listHeader (key : List Char) (items : List Scalar) : List Char :=
  encode [⟨key, .list (items.map Scalar.spelling)⟩]

/-- What is read of an item: the hyphens and spaces at its start are lost. -/
def remnant (item : Scalar) : List Char :=
  trim (item.spelling.dropWhile fun c => c == '-' || c == ' ')

/-! ## One item -/

theorem length_trim_le (s : List Char) : (trim s).length ≤ s.length := by
  obtain ⟨b, a, -, -, hs⟩ := exists_around_trim s
  have hlength := congrArg List.length hs
  simp only [List.length_append] at hlength
  omega

theorem IsListed.spelling_ne_nil (h : IsListed item) : item.spelling ≠ [] :=
  Scalar.spelling_ne_nil fun he => h.1 (he ▸ rfl)

/-- An item that starts with a hyphen is read as a shorter text. -/
theorem remnant_ne_of_hyphen (text : List Char) : remnant (.plain ('-' :: text)) ≠ '-' :: text := by
  intro h
  have htrim := length_trim_le (text.dropWhile fun c => c == '-' || c == ' ')
  have hdrop := (List.dropWhile_sublist (l := text) fun c => c == '-' || c == ' ').length_le
  have hlength := congrArg List.length h
  simp only [remnant, Scalar.spelling, List.dropWhile_cons_of_pos, beq_self_eq_true, Bool.true_or,
    List.length_cons] at hlength
  omega

/-- The quotes around an item are read as part of it. -/
theorem remnant_quoted {text : List Char} (h : IsScalar (.quoted text)) :
    remnant (.quoted text) = '"' :: (text ++ ['"']) := by
  have hstart : (Scalar.quoted text).spelling.head? ≠ some '-' := by simp [Scalar.spelling]
  rw [remnant, dropWhile_dash_eq_self h.spelling_trimmed hstart, trim_eq_self h.spelling_trimmed]
  rfl

/-- **An item is read as its text** if and only if it is not quoted and does not start with a
hyphen. -/
theorem remnant_eq_text_iff (h : IsListed item) :
    remnant item = item.text ↔ ∃ text, item = .plain text ∧ text.head? ≠ some '-' := by
  cases item with
  | plain text =>
    constructor
    · intro hread
      refine ⟨text, rfl, fun hhyphen => ?_⟩
      obtain ⟨rest, rfl⟩ := List.head?_eq_some_iff.mp hhyphen
      exact remnant_ne_of_hyphen rest hread
    · rintro ⟨_, ⟨⟩, hhyphen⟩
      have htrimmed : Trimmed text := h.2.1
      show trim (text.dropWhile _) = text
      rw [dropWhile_dash_eq_self htrimmed hhyphen, trim_eq_self htrimmed]
  | quoted text =>
    constructor
    · intro hread
      rw [remnant_quoted h.2.2] at hread
      have hlength := congrArg List.length hread
      simp only [Scalar.text, List.length_cons, List.length_append] at hlength
      omega
    · rintro ⟨_, ⟨⟩, -⟩

/-! ## The list -/

/-- The lines of a list mean its key and what is left of its items. -/
theorem lines_listHeader (hk : IsKey key) (hitems : ∀ item ∈ items, IsListed item) :
    Restricted.lines (listHeader key items) =
      .key key [] :: items.map fun item => .item (remnant item) := by
  have htext : listHeader key items =
      (pair key [] [] :: items.map fun item => "  - ".toList ++ item.spelling).flatMap
        (· ++ ['\n']) := by
    simp [listHeader, encode, HeaderField.lines, Function.comp_def]
  have hlegible : ∀ line ∈ pair key [] [] :: items.map fun item => "  - ".toList ++ item.spelling,
      Legible line := by
    refine List.forall_mem_cons.mpr
      ⟨legible_pair hk trimmed_nil List.not_mem_nil rfl List.not_mem_nil, ?_⟩
    refine List.forall_mem_map.mpr fun item hitem => ?_
    have hlisted := hitems item hitem
    exact legible_item hlisted.spelling_ne_nil hlisted.2.2.spelling_trimmed hlisted.2.2.oneLine
  have hhead : ∀ c ∈ (listHeader key items).head?, isBlank c = false := head_encode hk []
  rw [htext] at hhead ⊢
  rw [lines_terminated (List.cons_ne_nil _ _) hlegible hhead, List.map_cons, List.map_map,
    classify_pair hk rfl trimmed_nil]
  refine congrArg (Line.key key [] :: ·) (List.map_congr_left fun item hitem => ?_)
  have hlisted := hitems item hitem
  show Line.classify ("  - ".toList ++ item.spelling) = .item (remnant item)
  rw [classify_dash, itemText_append hlisted.spelling_ne_nil hlisted.2.2.spelling_trimmed, remnant]

/-- **The items of a list are read one by one.** -/
theorem parse_listHeader (hk : IsKey key) (hne : items ≠ [])
    (hitems : ∀ item ∈ items, IsListed item) :
    parse (String.ofList (listHeader key items)) = ⟨[(String.ofList key,
      .list (items.map fun item => .string (String.ofList (remnant item))))]⟩ := by
  rw [parse, String.toList_ofList, lines_listHeader hk hitems]
  -- the first item opens a block of items
  obtain ⟨first, rest, rfl⟩ := List.exists_cons_of_ne_nil hne
  have hfold := foldl_items .empty (String.ofList key) ((first :: rest).map remnant) []
  rw [List.map_map, List.map_map] at hfold
  exact congrArg State.finish hfold

/-- A list comes back if each of its items is read as its text. -/
theorem get?_listHeader_eq_iff (hk : IsKey key) (hne : items ≠ [])
    (hitems : ∀ item ∈ items, IsListed item) :
    (parse (String.ofList (listHeader key items))).get? (String.ofList key) =
        some (.list (items.map Scalar.value)) ↔ ∀ item ∈ items, remnant item = item.text := by
  have hget (k : String) (v : Value) : (⟨[(k, v)]⟩ : Mapping).get? k = some v := by
    simp [Mapping.get?]
  rw [parse_listHeader hk hne hitems, hget, Option.some_inj, Value.list.injEq, List.map_inj_left]
  refine forall₂_congr fun item _ => ?_
  rw [Scalar.value, Value.string.injEq, String.ofList_inj]

/-- **A list comes back if and only if none of its items is quoted or starts with a hyphen.** -/
theorem get?_listHeader_iff (hk : IsKey key) (hne : items ≠ [])
    (hitems : ∀ item ∈ items, IsListed item) :
    (parse (String.ofList (listHeader key items))).get? (String.ofList key) =
        some (.list (items.map Scalar.value)) ↔
      ∀ item ∈ items, ∃ text, item = .plain text ∧ text.head? ≠ some '-' := by
  rw [get?_listHeader_eq_iff hk hne hitems]
  exact forall₂_congr fun item hitem => remnant_eq_text_iff (hitems item hitem)

/-- Items with hyphens, colons and quotes in them that come back, because they do not start with a
hyphen and are not quoted. -/
def plainItems : List Scalar := [.plain "1 - 2: x".toList, .plain "\"a\" b".toList]

theorem get?_listHeader_plainItems :
    IsKey "k".toList ∧ plainItems ≠ [] ∧ (∀ item ∈ plainItems, IsListed item) ∧
      (parse (String.ofList (listHeader "k".toList plainItems))).get? (String.ofList "k".toList) =
        some (.list (plainItems.map Scalar.value)) := by
  have hk : IsKey "k".toList := by decide
  have hne : plainItems ≠ [] := List.cons_ne_nil _ _
  have hitems : ∀ item ∈ plainItems, IsListed item := by decide
  refine ⟨hk, hne, hitems, (get?_listHeader_iff hk hne hitems).mpr ?_⟩
  simp [plainItems]

/-- A list of texts does not always come back: of `-5` only `5` does. -/
theorem not_get?_listHeader : ¬ ∀ (key : List Char) (items : List Scalar),
    IsKey key → items ≠ [] → (∀ item ∈ items, IsListed item) →
      (parse (String.ofList (listHeader key items))).get? (String.ofList key) =
        some (.list (items.map Scalar.value)) := by
  intro h
  have hk : IsKey "k".toList := by decide
  have hitems : ∀ item ∈ [Scalar.plain "-5".toList, .quoted "a".toList], IsListed item := by decide
  have hread := (get?_listHeader_eq_iff hk (List.cons_ne_nil _ _) hitems).mp
    (h _ _ hk (List.cons_ne_nil _ _) hitems)
  exact remnant_ne_of_hyphen "5".toList (hread _ List.mem_cons_self)

end SkillLint.Header.Restricted
