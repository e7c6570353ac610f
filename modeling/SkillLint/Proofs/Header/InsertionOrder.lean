import Mathlib.Data.Finset.Card
import SkillLint.Proofs.Header.Keys

/-!
# What a mapping remembers of its insertions

A mapping is a plain list of entries, and every question to it is a search of that list.  What the
answers mean is a matter of the insertions so far, which `InsertionOrdered` spells out: the keys
are those that were inserted, each once, in the order in which they came first; a key has the value
that was inserted last under it; and all other questions agree with these two.

One insertion changes what is under its key and nothing else (`get?_insert`), and where the keys
stand it changes nothing at all (`keys_prefix_insert`).  **So every sequence of insertions, from the
mapping without keys, gives a mapping that remembers it** (`insertionOrdered_ofList`).
-/

namespace SkillLint.Mapping

variable {m : Mapping} {pairs : List (String × Value)} {key : String} {value : Value}

/-- The pair of key and value is the last one with the key. -/
def LastInserted (pairs : List (String × Value)) (key : String) (value : Value) : Prop :=
  ∃ before after, pairs = before ++ (key, value) :: after ∧ key ∉ after.map Prod.fst

/-- **The mapping holds what was inserted**, where `pairs` are the insertions in their order. -/
structure InsertionOrdered (pairs : List (String × Value)) (m : Mapping) : Prop where
  mem_keys_iff : ∀ key, key ∈ m.keys ↔ key ∈ pairs.map Prod.fst
  nodup_keys : m.keys.Nodup
  /-- A key stands before the keys whose first insertion came later. -/
  ordered : m.keys.Pairwise fun a b =>
    (pairs.map Prod.fst).idxOf a < (pairs.map Prod.fst).idxOf b
  get?_eq_some_iff : ∀ key value, m.get? key = some value ↔ LastInserted pairs key value
  get?_eq_none_iff : ∀ key, m.get? key = none ↔ key ∉ pairs.map Prod.fst
  contains_iff : ∀ key, m.contains key = true ↔ key ∈ pairs.map Prod.fst
  /-- The size is the number of different keys. -/
  size_eq : m.size = (pairs.map Prod.fst).toFinset.card
  isEmpty_iff : m.isEmpty = true ↔ pairs = []
  /-- The entries are the keys in their order, each with its value. -/
  entries_eq : m.entries.map some = m.keys.map fun key => (m.get? key).map fun value => (key, value)
  present?_eq_some_iff : ∀ key value,
    m.present? key = some value ↔ m.get? key = some value ∧ value ≠ .null
  /-- A further insertion changes no value but that under its key, -/
  get?_insert : ∀ key value other,
    (m.insert key value).get? other = if other = key then some value else m.get? other
  /-- and every key stays where it stands. -/
  keys_prefix_insert : ∀ key value, m.keys <+: (m.insert key value).keys

/-! ## One insertion -/

theorem lookup_cons_eq_ite (k : String) (v : Value) (rest : List (String × Value)) :
    ((k, v) :: rest).lookup key = if key = k then some v else rest.lookup key := by
  by_cases h : key = k
  · rw [if_pos h, List.lookup_cons, beq_iff_eq.mpr h]
  · rw [if_neg h, List.lookup_cons, beq_false_of_ne h]

theorem lookup_insertEntry (other : String) : ∀ entries : List (String × Value),
    (insertEntry key value entries).lookup other =
      if other = key then some value else entries.lookup other
  | [] => lookup_cons_eq_ite key value []
  | (k, v) :: rest => by
      by_cases hk : k = key
      · subst hk
        by_cases h : other = k <;> simp [insertEntry, lookup_cons_eq_ite, h]
      · rw [insertEntry, if_neg hk, lookup_cons_eq_ite, lookup_cons_eq_ite,
          lookup_insertEntry other rest]
        by_cases h : other = k
        · rw [if_pos h, if_pos h, if_neg (h ▸ hk)]
        · rw [if_neg h, if_neg h]

/-- Inserting changes the value under one key. -/
theorem get?_insert (m : Mapping) (key : String) (value : Value) (other : String) :
    (m.insert key value).get? other = if other = key then some value else m.get? other :=
  lookup_insertEntry other m.entries

/-- Inserting leaves every key where it stands. -/
theorem keys_prefix_insert (m : Mapping) (key : String) (value : Value) :
    m.keys <+: (m.insert key value).keys := by
  rw [keys_insert]
  split
  · exact List.prefix_rfl
  · exact List.prefix_append m.keys [key]

/-! ## What holds of every mapping -/

theorem get?_eq_none_iff_notMem_keys : m.get? key = none ↔ key ∉ m.keys := by
  rw [← contains_iff_mem_keys, contains]
  cases m.get? key <;> simp

theorem present?_eq_some_iff :
    m.present? key = some value ↔ m.get? key = some value ∧ value ≠ .null := by
  have hnull : (!value.isNull) = true ↔ value ≠ .null := by
    cases value <;> simp [Value.isNull]
  rw [present?, Option.filter_eq_some_iff, hnull]

theorem isEmpty_iff_keys : m.isEmpty = true ↔ m.keys = [] := by
  rw [isEmpty, keys, List.isEmpty_iff, List.map_eq_nil_iff]

/-- Where the keys are distinct, every entry is found under its key. -/
theorem get?_of_mem (hkeys : m.keys.Nodup) (h : (key, value) ∈ m.entries) :
    m.get? key = some value := by
  obtain ⟨before, after, hentries⟩ := List.append_of_mem h
  refine List.lookup_eq_some_iff.mpr ⟨before, after, hentries, fun e he => ?_⟩
  rw [keys, hentries, List.map_append, List.map_cons] at hkeys
  have hnotMem := (List.nodup_middle.mp hkeys).notMem
  refine bne_iff_ne.mpr fun hsame => hnotMem ?_
  exact List.mem_append_left _ (List.mem_map.mpr ⟨e, he, hsame.symm⟩)

/-- Where the keys are distinct, they lead to all entries. -/
theorem entries_eq_of_nodup (hkeys : m.keys.Nodup) : m.entries.map some =
    m.keys.map fun key => (m.get? key).map fun value => (key, value) := by
  rw [keys, List.map_map]
  refine List.map_congr_left fun e he => ?_
  show some e = (m.get? e.1).map fun value => (e.1, value)
  rw [get?_of_mem hkeys he]
  rfl

/-! ## Insertions one after another -/

/-- The last insertion is made into the mapping of those before it. -/
theorem ofList_concat (pairs : List (String × Value)) (p : String × Value) :
    ofList (pairs ++ [p]) = (ofList pairs).insert p.1 p.2 :=
  List.foldl_concat ..

theorem mem_keys_ofList_iff : key ∈ (ofList pairs).keys ↔ key ∈ pairs.map Prod.fst := by
  induction pairs using List.reverseRecOn with
  | nil => exact Iff.rfl
  | append_singleton pairs p ih =>
    rw [ofList_concat, keys_insert, List.map_append, List.mem_append, ← ih]
    by_cases hp : p.1 ∈ (ofList pairs).keys
    · rw [if_pos hp]
      refine ⟨.inl, ?_⟩
      rintro (h | h)
      · exact h
      · exact List.mem_singleton.mp h ▸ hp
    · rw [if_neg hp, List.mem_append]
      rfl

theorem nodup_keys_ofList (pairs : List (String × Value)) : (ofList pairs).keys.Nodup := by
  induction pairs using List.reverseRecOn with
  | nil => exact List.nodup_nil
  | append_singleton pairs p ih =>
    rw [ofList_concat]
    exact nodup_keys_insert ih

/-- **The keys stand in the order of their first insertions.** -/
theorem pairwise_keys_ofList (pairs : List (String × Value)) :
    (ofList pairs).keys.Pairwise fun a b =>
      (pairs.map Prod.fst).idxOf a < (pairs.map Prod.fst).idxOf b := by
  induction pairs using List.reverseRecOn with
  | nil => exact List.Pairwise.nil
  | append_singleton pairs p ih =>
    have hsame : ∀ a ∈ (ofList pairs).keys,
        ((pairs ++ [p]).map Prod.fst).idxOf a = (pairs.map Prod.fst).idxOf a := by
      intro a ha
      rw [List.map_append]
      exact List.idxOf_append_of_mem (mem_keys_ofList_iff.mp ha)
    have hbefore : (ofList pairs).keys.Pairwise fun a b =>
        ((pairs ++ [p]).map Prod.fst).idxOf a < ((pairs ++ [p]).map Prod.fst).idxOf b :=
      ih.imp_of_mem fun ha hb hlt => by rwa [hsame _ ha, hsame _ hb]
    rw [ofList_concat, keys_insert]
    by_cases hp : p.1 ∈ (ofList pairs).keys
    · rwa [if_pos hp]
    · -- a new key comes first at the end, behind all that were inserted before
      rw [if_neg hp]
      refine List.pairwise_append.mpr ⟨hbefore, List.pairwise_singleton _ _, fun a ha b hb => ?_⟩
      rw [List.mem_singleton.mp hb, hsame a ha, List.map_append,
        List.idxOf_append_of_notMem (mt mem_keys_ofList_iff.mpr hp)]
      have hlt := List.idxOf_lt_length_of_mem (mem_keys_ofList_iff.mp ha)
      omega

/-- The value under a key is found from the end of the insertions. -/
theorem get?_ofList (pairs : List (String × Value)) (key : String) :
    (ofList pairs).get? key = pairs.reverse.lookup key := by
  induction pairs using List.reverseRecOn with
  | nil => rfl
  | append_singleton pairs p ih =>
    rw [ofList_concat, get?_insert, ih, List.reverse_concat, lookup_cons_eq_ite]

/-- **A key has the value that was inserted last under it.** -/
theorem get?_ofList_eq_some_iff :
    (ofList pairs).get? key = some value ↔ LastInserted pairs key value := by
  have hnotMem : ∀ entries : List (String × Value),
      (∀ p ∈ entries, (key != p.1) = true) ↔ key ∉ entries.reverse.map Prod.fst := by
    intro entries
    simp only [bne_iff_ne, List.mem_map, List.mem_reverse, not_exists, not_and]
    exact forall₂_congr fun p _ => ne_comm
  rw [get?_ofList, List.lookup_eq_some_iff]
  constructor
  · rintro ⟨later, earlier, hpairs, hlater⟩
    refine ⟨earlier.reverse, later.reverse, ?_, (hnotMem later).mp hlater⟩
    rw [← List.reverse_reverse pairs, hpairs]
    simp
  · rintro ⟨before, after, rfl, hafter⟩
    refine ⟨after.reverse, before.reverse, by simp, (hnotMem _).mpr ?_⟩
    rwa [List.reverse_reverse]

/-- **Every sequence of insertions is remembered.** -/
theorem insertionOrdered_ofList (pairs : List (String × Value)) :
    InsertionOrdered pairs (ofList pairs) where
  mem_keys_iff _ := mem_keys_ofList_iff
  nodup_keys := nodup_keys_ofList pairs
  ordered := pairwise_keys_ofList pairs
  get?_eq_some_iff _ _ := get?_ofList_eq_some_iff
  get?_eq_none_iff _ := get?_eq_none_iff_notMem_keys.trans (not_congr mem_keys_ofList_iff)
  contains_iff _ := contains_iff_mem_keys.trans mem_keys_ofList_iff
  size_eq := by
    have hsame : (ofList pairs).keys.toFinset = (pairs.map Prod.fst).toFinset := by
      ext key
      rw [List.mem_toFinset, List.mem_toFinset, mem_keys_ofList_iff]
    rw [← hsame, List.toFinset_card_of_nodup (nodup_keys_ofList pairs), keys, List.length_map]
    rfl
  isEmpty_iff := by
    rw [isEmpty_iff_keys, List.eq_nil_iff_forall_not_mem]
    simp only [mem_keys_ofList_iff]
    rw [← List.eq_nil_iff_forall_not_mem, List.map_eq_nil_iff]
  entries_eq := entries_eq_of_nodup (nodup_keys_ofList pairs)
  present?_eq_some_iff _ _ := present?_eq_some_iff
  get?_insert := get?_insert (ofList pairs)
  keys_prefix_insert := keys_prefix_insert (ofList pairs)

end SkillLint.Mapping
