import SkillLint.Header.Parser

/-!
# Mappings hold every key once

A `Mapping` is a list of entries, and nothing in its type keeps a key from standing there
twice.  What the two parsers answer is built by `insert` alone, which adds a key that is
new at the end (`insert_of_notMem`) and leaves the keys as they are otherwise
(`keys_insert`).  Hence **every mapping inside a parsed header has distinct keys**, at
every depth (`HeaderParser.wellKeyed_of_parse`), whichever parser read it.
-/

namespace SkillLint

/-! ## Inserting -/

namespace Mapping

variable {m : Mapping} {key : String} {value : Value}

theorem insertEntry_of_notMem : ∀ {entries : List (String × Value)},
    key ∉ entries.map Prod.fst → insertEntry key value entries = entries ++ [(key, value)]
  | [], _ => rfl
  | (k, v) :: rest, h => by
      obtain ⟨hk, hrest⟩ := not_or.mp (fun hc => h (List.mem_cons.mpr hc))
      rw [insertEntry, if_neg (fun he => hk he.symm), insertEntry_of_notMem hrest]
      rfl

theorem keys_insertEntry : ∀ entries : List (String × Value),
    (insertEntry key value entries).map Prod.fst =
      if key ∈ entries.map Prod.fst then entries.map Prod.fst else entries.map Prod.fst ++ [key]
  | [] => by simp [insertEntry]
  | (k, v) :: rest => by
      by_cases hk : k = key
      · simp [insertEntry, hk]
      · have hk' : ¬ key = k := fun he => hk he.symm
        rw [insertEntry, if_neg hk, List.map_cons, keys_insertEntry rest]
        by_cases hrest : key ∈ rest.map Prod.fst
        · simp [hrest]
        · rw [if_neg hrest, if_neg]
          · simp
          · rw [List.map_cons, List.mem_cons]
            exact fun hc => hrest (hc.resolve_left hk')

/-- An entry after inserting is the new one, or it was there before. -/
theorem mem_insertEntry {e : String × Value} : ∀ {entries : List (String × Value)},
    e ∈ insertEntry key value entries → e = (key, value) ∨ e ∈ entries
  | [], h => .inl (List.mem_singleton.mp h)
  | (k, v) :: rest, h => by
      rw [insertEntry] at h
      split at h
      · rename_i hk
        subst hk
        rcases List.mem_cons.mp h with rfl | h
        · exact .inl rfl
        · exact .inr (List.mem_cons_of_mem _ h)
      · rcases List.mem_cons.mp h with rfl | h
        · exact .inr List.mem_cons_self
        · exact (mem_insertEntry h).imp_right (List.mem_cons_of_mem _)

theorem keys_concat (m : Mapping) (e : String × Value) :
    (⟨m.entries ++ [e]⟩ : Mapping).keys = m.keys ++ [e.1] :=
  List.map_append

/-- Of distinct keys to come the first is new, and with it the keys stay distinct. -/
theorem nodup_keys_concat {e : String × Value} {rest : List String}
    (h : (m.keys ++ e.1 :: rest).Nodup) :
    e.1 ∉ m.keys ∧ ((⟨m.entries ++ [e]⟩ : Mapping).keys ++ rest).Nodup := by
  rw [List.append_cons] at h
  refine ⟨fun hmem => ?_, by rwa [keys_concat]⟩
  obtain ⟨hfirst, -, -⟩ := List.nodup_append.mp h
  exact (List.nodup_append.mp hfirst).2.2 e.1 hmem e.1 (List.mem_singleton_self _) rfl

/-- A new key is added at the end. -/
theorem insert_of_notMem (h : key ∉ m.keys) : m.insert key value = ⟨m.entries ++ [(key, value)]⟩ :=
  congrArg Mapping.mk (insertEntry_of_notMem h)

/-- Inserting adds a new key at the end and keeps the keys otherwise. -/
theorem keys_insert (m : Mapping) (key : String) (value : Value) :
    (m.insert key value).keys = if key ∈ m.keys then m.keys else m.keys ++ [key] :=
  keys_insertEntry m.entries

theorem nodup_keys_insert (h : m.keys.Nodup) : (m.insert key value).keys.Nodup := by
  rw [keys_insert]
  split
  · exact h
  · rename_i hkey
    refine List.nodup_append.mpr ⟨h, List.nodup_cons.mpr ⟨List.not_mem_nil, List.nodup_nil⟩, ?_⟩
    intro a ha b hb he
    exact hkey (List.mem_singleton.mp hb ▸ he ▸ ha)

theorem contains_iff_mem_keys : m.contains key = true ↔ key ∈ m.keys := by
  rw [contains, get?, List.lookup_isSome_iff, keys, List.mem_map]
  exact exists_congr fun e => and_congr_right fun _ => beq_iff_eq.trans eq_comm

end Mapping

/-! ## Distinct keys at every depth -/

/-- Every mapping inside the value has distinct keys. -/
inductive Value.WellKeyed : Value → Prop where
  | null : WellKeyed .null
  | bool (b : Bool) : WellKeyed (.bool b)
  | int (n : Int) : WellKeyed (.int n)
  | float (x : Binary64) : WellKeyed (.float x)
  | string (s : String) : WellKeyed (.string s)
  | list {items : List Value} (hitems : ∀ v ∈ items, WellKeyed v) : WellKeyed (.list items)
  | map {entries : List (String × Value)} (hkeys : (entries.map Prod.fst).Nodup)
      (hvalues : ∀ e ∈ entries, WellKeyed e.2) : WellKeyed (.map entries)

namespace Mapping

variable {m : Mapping} {key : String} {value : Value}

/-- The mapping and every mapping inside it have distinct keys. -/
def WellKeyed (m : Mapping) : Prop := (Value.map m.entries).WellKeyed

theorem WellKeyed.nodup (h : m.WellKeyed) : m.keys.Nodup := by
  cases h with
  | map hkeys _ => exact hkeys

theorem WellKeyed.value_of_mem {e : String × Value} (h : m.WellKeyed) (he : e ∈ m.entries) :
    e.2.WellKeyed := by
  cases h with
  | map _ hvalues => exact hvalues e he

theorem wellKeyed_empty : empty.WellKeyed :=
  .map List.nodup_nil fun _ he => absurd he List.not_mem_nil

theorem WellKeyed.insert (h : m.WellKeyed) (hv : value.WellKeyed) :
    (m.insert key value).WellKeyed := by
  refine .map (nodup_keys_insert h.nodup) fun e he => ?_
  rcases mem_insertEntry he with rfl | he
  · exact hv
  · exact h.value_of_mem he

theorem wellKeyed_foldl_insert : ∀ (pairs : List (String × Value)) {m : Mapping}, m.WellKeyed →
    (∀ p ∈ pairs, p.2.WellKeyed) →
    (pairs.foldl (fun m p => m.insert p.1 p.2) m).WellKeyed
  | [], _, hm, _ => hm
  | p :: rest, _, hm, h =>
      wellKeyed_foldl_insert rest (hm.insert (h p List.mem_cons_self))
        fun q hq => h q (List.mem_cons_of_mem _ hq)

theorem wellKeyed_ofList {pairs : List (String × Value)} (h : ∀ p ∈ pairs, p.2.WellKeyed) :
    (ofList pairs).WellKeyed :=
  wellKeyed_foldl_insert pairs wellKeyed_empty h

/-- What is found under a key stands among the entries. -/
theorem mem_of_get? (h : m.get? key = some value) : (key, value) ∈ m.entries := by
  obtain ⟨l₁, l₂, heq, -⟩ := List.lookup_eq_some_iff.mp h
  rw [heq]
  exact List.mem_append_right _ List.mem_cons_self

end Mapping

/-! ## What the full parser answers -/

namespace Yaml.Data

mutual

theorem wellKeyed_toValue : ∀ d : Data, d.toValue.WellKeyed
  | null => .null
  | bool b => .bool b
  | int n => by
      show Value.WellKeyed (if n < 2 ^ 63 then _ else _)
      split
      · exact .int n
      · exact .float _
  | float x => .float x
  | string s => .string _
  | sequence items => .list (wellKeyed_itemsToValues items)
  | mapping pairs => Mapping.wellKeyed_ofList (wellKeyed_pairsToValues pairs)
  | tagged _ d => wellKeyed_toValue d

theorem wellKeyed_itemsToValues : ∀ items : List Data, ∀ v ∈ itemsToValues items, v.WellKeyed
  | [], _, hv => absurd hv List.not_mem_nil
  | d :: rest, v, hv => by
      rcases List.mem_cons.mp hv with rfl | hv
      · exact wellKeyed_toValue d
      · exact wellKeyed_itemsToValues rest v hv

theorem wellKeyed_pairsToValues : ∀ pairs : List (Data × Data),
    ∀ p ∈ pairsToValues pairs, p.2.WellKeyed
  | [], _, hp => absurd hp List.not_mem_nil
  | (k, v) :: rest, p, hp => by
      rcases List.mem_cons.mp hp with rfl | hp
      · exact wellKeyed_toValue v
      · exact wellKeyed_pairsToValues rest p hp

end

end Yaml.Data

theorem Yaml.wellKeyed_of_read? {text : String} {v : Value} (h : read? text = some v) :
    v.WellKeyed := by
  simp only [read?, Option.bind_eq_bind, Option.bind_eq_some_iff] at h
  obtain ⟨_, _, node, _, h⟩ := h
  cases node with
  | none => cases h; exact .null
  | some node =>
    obtain ⟨d, _, rfl⟩ := Option.map_eq_some_iff.mp h
    exact Data.wellKeyed_toValue d

/-! ## What the restricted parser answers -/

namespace Header.Restricted

/-- The children read so far are strings, the entries with distinct keys. -/
def Children.WellKeyed : Children → Prop
  | .none => True
  | .items values => ∀ v ∈ values, v.WellKeyed
  | .entries m => m.WellKeyed

theorem Block.wellKeyed_of_value? {b : Block} (hb : b.children.WellKeyed) {v : Value}
    (h : b.value? = some v) : v.WellKeyed := by
  rw [value?] at h
  split at h
  · cases h
  · rename_i items hc
    cases h
    rw [hc] at hb
    exact .list hb
  · rename_i entries hc
    cases h
    rw [hc] at hb
    exact hb

theorem Block.wellKeyed_addItem {b : Block} (hb : b.children.WellKeyed) (text : List Char) :
    (b.addItem text).children.WellKeyed := by
  rw [addItem]
  split
  · intro v hv
    rw [List.mem_singleton.mp hv]
    exact .string _
  · rename_i items hc
    rw [hc] at hb
    intro v hv
    rcases List.mem_append.mp hv with hv | hv
    · exact hb v hv
    · rw [List.mem_singleton.mp hv]
      exact .string _
  · exact hb

theorem Block.wellKeyed_addEntry {b : Block} (hb : b.children.WellKeyed)
    (key value : List Char) : (b.addEntry key value).children.WellKeyed := by
  rw [addEntry]
  split
  · exact Mapping.wellKeyed_empty.insert (.string _)
  · rename_i entries hc
    rw [hc] at hb
    exact Mapping.WellKeyed.insert hb (.string _)
  · exact hb

namespace State

/-- The mapping read so far and the open block have distinct keys. -/
structure WellKeyed (s : State) : Prop where
  result : s.result.WellKeyed
  block : ∀ b ∈ s.block, b.children.WellKeyed

theorem WellKeyed.close {s : State} (h : s.WellKeyed) : s.close.WellKeyed := by
  rw [State.close]
  split
  · exact h.result
  · rename_i b hb
    split
    · rename_i v hv
      split
      · exact h.result
      · exact h.result.insert (Block.wellKeyed_of_value? (h.block b hb) hv)
    · exact h.result

theorem WellKeyed.finish {s : State} (h : s.WellKeyed) : s.finish.WellKeyed := by
  rw [State.finish]
  split
  · exact h.result
  · rename_i b hb
    refine h.result.insert ?_
    cases hv : b.value? with
    | none => exact Mapping.wellKeyed_empty
    | some v => exact Block.wellKeyed_of_value? (h.block b hb) hv

theorem WellKeyed.step {s : State} (h : s.WellKeyed) (line : Line) : (s.step line).WellKeyed := by
  have onBlock : ∀ {f : Block → Block},
      (∀ b ∈ s.block, (f b).children.WellKeyed) →
      ∀ b ∈ s.block.map f, b.children.WellKeyed := by
    intro f hf b hb
    obtain ⟨c, hc, rfl⟩ := Option.map_eq_some_iff.mp hb
    exact hf c hc
  cases line with
  | other => exact h
  | item text =>
    exact ⟨h.result, onBlock fun b hb => Block.wellKeyed_addItem (h.block b hb) text⟩
  | entry key value =>
    exact ⟨h.result, onBlock fun b hb => Block.wellKeyed_addEntry (h.block b hb) key value⟩
  | key key value =>
    rw [State.step]
    split
    · exact ⟨h.close, fun b hb => by cases hb; trivial⟩
    · exact ⟨h.close.insert (.string _), fun b hb => by cases hb⟩

theorem WellKeyed.foldl_step : ∀ (lines : List Line) {s : State}, s.WellKeyed →
    (lines.foldl State.step s).WellKeyed
  | [], _, h => h
  | line :: rest, _, h => foldl_step rest (h.step line)

end State

theorem wellKeyed_parse (text : String) : (parse text).WellKeyed :=
  (State.WellKeyed.foldl_step (lines text.toList)
    ⟨Mapping.wellKeyed_empty, fun b hb => by cases hb⟩).finish

end Header.Restricted

/-- **A parsed header has distinct keys, at every depth.** -/
theorem HeaderParser.wellKeyed_of_parse {parser : HeaderParser} {text : String} {m : Mapping}
    (h : parser.parse text = .ok m) : m.WellKeyed := by
  cases parser with
  | restricted =>
    cases h
    exact Header.Restricted.wellKeyed_parse text
  | full =>
    rw [parse] at h
    split at h
    · cases h
    · cases h; exact Mapping.wellKeyed_empty
    · rename_i entries hread
      cases h
      exact Yaml.wellKeyed_of_read? hread
    · cases h

end SkillLint
