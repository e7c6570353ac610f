import Mathlib.Data.List.Basic
import SkillLint.Proofs.Header.Encoding
import SkillLint.Proofs.Header.Keys

/-!
# The restricted parser undoes the encoding

**What is encoded is read back**: the same keys in the same order, and under each of them the
value, the entries or the items that were written (`parse_encode`).

The lines of a field mean what they were written for (`HeaderField.classify_lines`), so what is left
is the run of the parser over meanings.  Between two fields its state `Holds` a mapping: it
answers the same mapping whether a key closes the open block or the header ends.  Each field
takes a state that holds a mapping to one that holds the mapping with the field added
(`Holds.field`), whatever field was there before it.
-/

namespace SkillLint.Header.Restricted

open SkillLint.Text
open HeaderField (pair)

/-! ## Values between quotes -/

theorem IsScalar.spelling_trimmed : ∀ {s : Scalar}, IsScalar s → Trimmed s.spelling
  | .plain _, h => h.2.1
  | .quoted t, _ => by
      have hquote : Trimmed ['"'] := trimmed_singleton (by decide)
      exact hquote.append hquote (List.cons_ne_nil _ _) (List.cons_ne_nil _ _) (a := t)

theorem IsScalar.oneLine : ∀ {s : Scalar}, IsScalar s → '\n' ∉ s.spelling
  | .plain _, h => h.1
  | .quoted t, h => by
      have h : '\n' ∉ t := h
      simp [Scalar.spelling, h]

/-- The parser takes off the quotes that were put on, and no others. -/
theorem stripQuotes_spelling : ∀ {s : Scalar}, IsScalar s → stripQuotes s.spelling = s.text
  | .plain t, h => by
      show stripQuotes t = t
      unfold stripQuotes
      split
      · exact if_neg fun hlast => h.2.2 ⟨rfl, hlast⟩
      · rfl
  | .quoted t, _ => by
      have hlast : ('"' :: (t ++ ['"'])).getLast? = some '"' := by
        rw [List.getLast?_cons, List.getLast?_concat]
        rfl
      show stripQuotes ('"' :: (t ++ ['"'])) = t
      rw [stripQuotes, if_pos hlast, List.dropLast_concat]

theorem Scalar.spelling_ne_nil : ∀ {s : Scalar}, s ≠ .plain [] → s.spelling ≠ []
  | .plain _, h => fun he => h (congrArg Scalar.plain he)
  | .quoted _, _ => List.cons_ne_nil _ _

/-! ## The lines of a field -/

namespace HeaderField

/-- What the lines of a field mean. -/
def meaning (f : HeaderField) : List Line :=
  match f.content with
  | .scalar s => [.key f.key s.spelling]
  | .mapping entries => .key f.key [] :: entries.map fun e => .entry e.1 e.2.spelling
  | .list items => .key f.key [] :: items.map .item

variable {f : HeaderField}

theorem lines_eq_cons (f : HeaderField) :
    ∃ space value rest, f.lines = pair f.key space value :: rest := by
  obtain ⟨key, content⟩ := f
  cases content with
  | scalar s => exact ⟨_, _, _, rfl⟩
  | mapping entries => exact ⟨_, _, _, rfl⟩
  | list items => exact ⟨_, _, _, rfl⟩

theorem legible_lines (hk : IsKey f.key) (hc : f.content.IsEncodable) :
    ∀ line ∈ f.lines, Legible line := by
  obtain ⟨key, content⟩ := f
  have hopen : Legible (pair key [] []) :=
    legible_pair hk trimmed_nil List.not_mem_nil rfl List.not_mem_nil
  cases content with
  | scalar s =>
    refine List.forall_mem_singleton.mpr ?_
    exact legible_pair hk hc.1.spelling_trimmed hc.1.oneLine (by decide) (by decide)
  | mapping entries =>
    refine List.forall_mem_cons.mpr ⟨hopen, List.forall_mem_map.mpr fun e he => ?_⟩
    obtain ⟨hkey, hdash, hs⟩ := hc.2.2 e he
    exact legible_indented_pair hkey hdash hs.spelling_trimmed hs.oneLine (by decide) (by decide)
  | list items =>
    refine List.forall_mem_cons.mpr ⟨hopen, List.forall_mem_map.mpr fun item hitem => ?_⟩
    obtain ⟨hne, htrimmed, hline, -⟩ := hc.2 item hitem
    exact legible_item hne htrimmed hline

/-- **The lines of a field mean what they were written for.** -/
theorem classify_lines (hk : IsKey f.key) (hc : f.content.IsEncodable) :
    f.lines.map Line.classify = f.meaning := by
  obtain ⟨key, content⟩ := f
  have hopen : Line.classify (pair key [] []) = .key key [] := classify_pair hk rfl trimmed_nil
  cases content with
  | scalar s => exact congrArg ([·]) (classify_pair hk (by decide) hc.1.spelling_trimmed)
  | mapping entries =>
    rw [lines, meaning, List.map_cons, hopen, List.map_map]
    refine congrArg (Line.key key [] :: ·) (List.map_congr_left fun e he => ?_)
    obtain ⟨hkey, hdash, hs⟩ := hc.2.2 e he
    exact classify_indented_pair hkey hdash (by decide) hs.spelling_trimmed
  | list items =>
    rw [lines, meaning, List.map_cons, hopen, List.map_map]
    refine congrArg (Line.key key [] :: ·) (List.map_congr_left fun item hitem => ?_)
    exact classify_item (hc.2 item hitem)

end HeaderField

/-! ## The run over a field -/

theorem ofList_key_ne_empty {key : List Char} (hk : IsKey key) : String.ofList key ≠ "" :=
  fun h => hk.1 (String.ofList_eq_empty_iff.mp h)

theorem nodup_map_ofList {α : Type} {xs : List α} {key : α → List Char}
    (h : (xs.map key).Nodup) : (xs.map fun x => String.ofList (key x)).Nodup := by
  have hmap : ((xs.map key).map String.ofList).Nodup :=
    List.Pairwise.map _ (fun a b hab he => hab (String.ofList_injective he)) h
  rwa [List.map_map] at hmap

/-- The entries of an open block are added to it one by one. -/
theorem foldl_entries (r : Mapping) (key : String) :
    ∀ (entries : List (List Char × Scalar)) (m : Mapping),
      (m.keys ++ entries.map fun e => String.ofList e.1).Nodup → (∀ e ∈ entries, IsScalar e.2) →
      (entries.map fun e => Line.entry e.1 e.2.spelling).foldl State.step
          ⟨r, some ⟨key, .entries m⟩⟩ =
        ⟨r, some ⟨key, .entries
          ⟨m.entries ++ entries.map fun e => (String.ofList e.1, e.2.value)⟩⟩⟩
  | [], m, _, _ => by simp
  | e :: rest, m, hnodup, hscalars => by
      obtain ⟨hs, hrest⟩ := List.forall_mem_cons.mp hscalars
      obtain ⟨hnew, hnodup⟩ :=
        Mapping.nodup_keys_concat (e := (String.ofList e.1, e.2.value)) hnodup
      have hinsert : m.insert (String.ofList e.1) e.2.value = _ := Mapping.insert_of_notMem hnew
      have hstep : State.step ⟨r, some ⟨key, .entries m⟩⟩ (.entry e.1 e.2.spelling) =
          ⟨r, some ⟨key, .entries ⟨m.entries ++ [(String.ofList e.1, e.2.value)]⟩⟩⟩ := by
        rw [← hinsert, Scalar.value, ← stripQuotes_spelling hs]
        rfl
      rw [List.map_cons, List.foldl_cons, hstep, foldl_entries r key rest _ hnodup hrest]
      simp

/-- The items of an open block are added to it one by one. -/
theorem foldl_items (r : Mapping) (key : String) : ∀ (items : List (List Char)) (vs : List Value),
    (items.map Line.item).foldl State.step ⟨r, some ⟨key, .items vs⟩⟩ =
      ⟨r, some ⟨key, .items (vs ++ items.map fun item => .string (String.ofList item))⟩⟩
  | [], vs => by simp
  | item :: rest, vs => by
      have hstep : State.step ⟨r, some ⟨key, .items vs⟩⟩ (.item item) =
          ⟨r, some ⟨key, .items (vs ++ [.string (String.ofList item)])⟩⟩ := rfl
      rw [List.map_cons, List.foldl_cons, hstep, foldl_items r key rest]
      simp

/-- The state answers the mapping, whether a key comes next or the end of the header. -/
structure State.Holds (s : State) (m : Mapping) : Prop where
  close : s.close = m
  finish : s.finish = m

theorem holds_start : State.start.Holds .empty := ⟨rfl, rfl⟩

/-- A block with children is stored under its key. -/
theorem holds_block {m : Mapping} {b : Block} {v : Value} (hkey : b.key ≠ "")
    (hnew : b.key ∉ m.keys) (hvalue : b.value? = some v) :
    State.Holds ⟨m, some b⟩ ⟨m.entries ++ [(b.key, v)]⟩ := by
  rw [← Mapping.insert_of_notMem hnew]
  refine ⟨?_, ?_⟩
  · simp only [State.close, hvalue, if_neg hkey]
  · simp only [State.finish, hvalue, Option.getD_some]

/-- **A field is added to what was read before it.** -/
theorem State.Holds.field {s : State} {m : Mapping} {f : HeaderField} (h : s.Holds m)
    (hk : IsKey f.key) (hc : f.content.IsEncodable) (hnew : String.ofList f.key ∉ m.keys) :
    State.Holds (f.meaning.foldl State.step s) ⟨m.entries ++ [f.entry]⟩ := by
  obtain ⟨key, content⟩ := f
  have hkey := ofList_key_ne_empty hk
  have hopen : State.step s (.key key []) = ⟨m, some ⟨String.ofList key, .none⟩⟩ := by
    rw [← h.close]
    rfl
  cases content with
  | scalar v =>
    have hstep : State.step s (.key key v.spelling) =
        ⟨⟨m.entries ++ [(String.ofList key, v.value)]⟩, none⟩ := by
      rw [State.step, if_neg (Scalar.spelling_ne_nil hc.2), stripQuotes_spelling hc.1, h.close,
        Mapping.insert_of_notMem hnew]
      rfl
    rw [HeaderField.meaning, List.foldl_cons, hstep]
    exact ⟨rfl, rfl⟩
  | mapping entries =>
    obtain ⟨hne, hnodup, hentries⟩ := hc
    have hnames : (Mapping.empty.keys ++ entries.map fun e => String.ofList e.1).Nodup :=
      nodup_map_ofList hnodup
    -- the first entry opens a block of entries
    obtain ⟨e, rest, rfl⟩ := List.exists_cons_of_ne_nil hne
    have hfold := foldl_entries m (String.ofList key) (e :: rest) .empty hnames
      fun e he => (hentries e he).2.2
    rw [HeaderField.meaning, List.foldl_cons, hopen]
    have hblock := holds_block (b := ⟨String.ofList key, .entries
      ⟨(e :: rest).map fun e => (String.ofList e.1, e.2.value)⟩⟩) hkey hnew rfl
    exact hfold ▸ hblock
  | list items =>
    obtain ⟨hne, hitems⟩ := hc
    -- the first item opens a block of items
    obtain ⟨item, rest, rfl⟩ := List.exists_cons_of_ne_nil hne
    have hfold := foldl_items m (String.ofList key) (item :: rest) []
    rw [HeaderField.meaning, List.foldl_cons, hopen]
    have hblock := holds_block (b := ⟨String.ofList key, .items
      ((item :: rest).map fun item => .string (String.ofList item))⟩) hkey hnew rfl
    exact hfold ▸ hblock

/-- Fields are added one by one. -/
theorem State.Holds.fields : ∀ {fields : List HeaderField} {s : State} {m : Mapping}, s.Holds m →
    (∀ f ∈ fields, IsKey f.key ∧ f.content.IsEncodable) →
    (m.keys ++ fields.map fun f => String.ofList f.key).Nodup →
    State.Holds ((fields.flatMap HeaderField.meaning).foldl State.step s)
      ⟨m.entries ++ fields.map HeaderField.entry⟩
  | [], s, m, h, _, _ => by simpa using h
  | f :: rest, s, m, h, hfields, hnodup => by
      obtain ⟨⟨hk, hc⟩, hrest⟩ := List.forall_mem_cons.mp hfields
      obtain ⟨hnew, hnodup⟩ := Mapping.nodup_keys_concat (e := f.entry) hnodup
      have hall := (h.field hk hc hnew).fields hrest hnodup
      rw [List.flatMap_cons, List.foldl_append, List.map_cons, List.append_cons]
      exact hall

/-! ## The round trip -/

/-- The first character of a header is that of its first key. -/
theorem head_encode {f : HeaderField} (hk : IsKey f.key) (rest : List HeaderField) :
    ∀ c ∈ (encode (f :: rest)).head?, isBlank c = false := by
  obtain ⟨space, value, below, hlines⟩ := f.lines_eq_cons
  obtain ⟨c, key, hkey⟩ := List.exists_cons_of_ne_nil hk.1
  intro d hd
  have hhead : (encode (f :: rest)).head? = (pair f.key space value).head? := by
    rw [encode, List.flatMap_cons, hlines, pair, hkey]
    rfl
  exact hk.head_pair d (hhead ▸ hd)

theorem lines_encode {f : HeaderField} {rest : List HeaderField}
    (h : ∀ g ∈ f :: rest, IsKey g.key ∧ g.content.IsEncodable) :
    Restricted.lines (encode (f :: rest)) = (f :: rest).flatMap HeaderField.meaning := by
  have hne : (f :: rest).flatMap HeaderField.lines ≠ [] := by
    obtain ⟨space, value, below, hlines⟩ := f.lines_eq_cons
    rw [List.flatMap_cons, hlines]
    exact List.cons_ne_nil _ _
  have hlegible : ∀ line ∈ (f :: rest).flatMap HeaderField.lines, Legible line :=
    List.forall_mem_flatMap.mpr fun g hg => HeaderField.legible_lines (h g hg).1 (h g hg).2
  have hread := lines_terminated hne hlegible (head_encode (h f List.mem_cons_self).1 rest)
  rw [encode, hread, List.map_flatMap]
  exact List.flatMap_congr fun g hg => HeaderField.classify_lines (h g hg).1 (h g hg).2

/-- **What is encoded is read back.** -/
theorem parse_encode {fields : List HeaderField} (h : Encodable fields) :
    parse (String.ofList (encode fields)) = ⟨fields.map HeaderField.entry⟩ := by
  rw [parse, String.toList_ofList]
  cases fields with
  | nil => rfl
  | cons f rest =>
    have hnames : (Mapping.empty.keys ++ (f :: rest).map fun f => String.ofList f.key).Nodup :=
      nodup_map_ofList h.1
    rw [lines_encode h.2]
    exact (holds_start.fields h.2 hnames).finish

/-- Fields of every kind, side by side: a value with a colon and a hyphen in it, an empty one
between quotes, entries of which the last is empty, and items that hold what a line may end
with. -/
def sampleFields : List HeaderField :=
  [⟨"a".toList, .scalar (.plain "- b: c".toList)⟩, ⟨"-".toList, .scalar (.quoted [])⟩,
    ⟨"k".toList, .list ["x: \"".toList, "#-".toList]⟩,
    ⟨"m".toList, .mapping [("-".toList, .quoted " ".toList), ("n".toList, .plain [])]⟩]

theorem parse_encode_sampleFields : Encodable sampleFields ∧
    parse (String.ofList (encode sampleFields)) = ⟨sampleFields.map HeaderField.entry⟩ :=
  have h : Encodable sampleFields := by decide +kernel
  ⟨h, parse_encode h⟩

end SkillLint.Header.Restricted
