import SkillLint.Proofs.Header.LineKinds

/-!
# Writing a header for the restricted parser

A header that the restricted parser understands is a list of fields: a key with a value, as it
is or between double quotes, or a key with a block below it, of entries or of items
(`encode`).  `Encodable` says which fields can be written so.  What it asks for is little: a
value may hold colons, hyphens, double quotes, number signs and blanks, as long as its ends
are not mistaken for something else.

**Every line that is written is read as what it was written for** (`classify_pair`,
`classify_indented_pair`, `classify_item`).  This holds of the last line of a header too, which
loses the blanks at its end before it is read (`Legible`), so a header is read line by line
(`lines_terminated`).
-/

namespace SkillLint.Header.Restricted

open SkillLint.Text

/-! ## Fields and their encoding -/

/-- A value that is written as it is, or between double quotes. -/
inductive Scalar where
  | plain (text : List Char)
  | quoted (text : List Char)
  deriving Repr, DecidableEq

namespace Scalar

/-- What is written. -/
def text : Scalar → List Char
  | plain t | quoted t => t

/-- The value as a value of a header. -/
def value (s : Scalar) : Value := .string (String.ofList s.text)

/-- The value as it is written. -/
def spelling : Scalar → List Char
  | plain t => t
  | quoted t => '"' :: (t ++ ['"'])

end Scalar

/-- What a field holds: a value, or a block of entries or of items. -/
inductive Content where
  | scalar (value : Scalar)
  | mapping (entries : List (List Char × Scalar))
  | list (items : List (List Char))
  deriving Repr, DecidableEq

/-- The content as a value of a header. -/
def Content.value : Content → Value
  | scalar s => s.value
  | mapping entries => .map (entries.map fun e => (String.ofList e.1, e.2.value))
  | list items => .list (items.map fun item => .string (String.ofList item))

/-- A key with what it holds. -/
structure HeaderField where
  key : List Char
  content : Content
  deriving Repr, DecidableEq

namespace HeaderField

/-- The field as an entry of a mapping. -/
def entry (f : HeaderField) : String × Value := (String.ofList f.key, f.content.value)

/-- A key, a colon, and after some space a value. -/
def pair (key space value : List Char) : List Char := key ++ ':' :: (space ++ value)

/-- The lines of a field. -/
def lines (f : HeaderField) : List (List Char) :=
  match f.content with
  | .scalar s => [pair f.key [' '] s.spelling]
  | .mapping entries =>
    pair f.key [] [] :: entries.map fun e => "  ".toList ++ pair e.1 [' '] e.2.spelling
  | .list items => pair f.key [] [] :: items.map ("  - ".toList ++ ·)

end HeaderField

/-- The fields of a header, one after another, every line with a line feed at its end. -/
def encode (fields : List HeaderField) : List Char :=
  (fields.flatMap HeaderField.lines).flatMap (· ++ ['\n'])

/-! ## Fields that can be encoded -/

/-- A key is trimmed, on one line, and without colon. -/
def IsKey (key : List Char) : Prop := key ≠ [] ∧ Trimmed key ∧ ':' ∉ key ∧ '\n' ∉ key

/-- A value is on one line.  Without double quotes around it, it is trimmed, and does not look
as if it had them. -/
def IsScalar : Scalar → Prop
  | .plain t => '\n' ∉ t ∧ Trimmed t ∧ ¬ (t.head? = some '"' ∧ t.getLast? = some '"')
  | .quoted t => '\n' ∉ t

/-- An item is trimmed, on one line, and does not start with a hyphen. -/
def IsItem (item : List Char) : Prop :=
  item ≠ [] ∧ Trimmed item ∧ '\n' ∉ item ∧ item.head? ≠ some '-'

/-- A value is not empty, unless it is quoted; a block is not empty, and its keys are distinct
and do not look like items. -/
def Content.IsEncodable : Content → Prop
  | scalar s => IsScalar s ∧ s ≠ .plain []
  | mapping entries => entries ≠ [] ∧ (entries.map Prod.fst).Nodup ∧
      ∀ e ∈ entries, IsKey e.1 ∧ ¬ "- ".toList <+: e.1 ∧ IsScalar e.2
  | list items => items ≠ [] ∧ ∀ item ∈ items, IsItem item

/-- **Fields that can be encoded**: their keys are distinct, and what they hold can be
written. -/
def Encodable (fields : List HeaderField) : Prop :=
  (fields.map HeaderField.key).Nodup ∧ ∀ f ∈ fields, IsKey f.key ∧ f.content.IsEncodable

instance (key : List Char) : Decidable (IsKey key) := inferInstanceAs (Decidable (_ ∧ _))

instance : (s : Scalar) → Decidable (IsScalar s)
  | .plain _ => inferInstanceAs (Decidable (_ ∧ _))
  | .quoted _ => inferInstanceAs (Decidable (_ ∉ _))

instance (item : List Char) : Decidable (IsItem item) := inferInstanceAs (Decidable (_ ∧ _))

instance : (c : Content) → Decidable c.IsEncodable
  | .scalar _ => inferInstanceAs (Decidable (_ ∧ _))
  | .mapping _ => inferInstanceAs (Decidable (_ ∧ _))
  | .list _ => inferInstanceAs (Decidable (_ ∧ _))

instance (fields : List HeaderField) : Decidable (Encodable fields) :=
  inferInstanceAs (Decidable (_ ∧ _))

/-! ## Reading a pair -/

open HeaderField (pair)

variable {key space value item b s : List Char}

theorem not_prefix_of_head {p : List Char} (h : ∀ c ∈ s.head?, isBlank c = false) :
    ¬ ' ' :: p <+: s := by
  rintro ⟨r, rfl⟩
  exact absurd (h ' ' rfl) (by decide)

theorem IsKey.head_pair (hk : IsKey key) : ∀ c ∈ (pair key space value).head?,
    isBlank c = false := by
  obtain ⟨c, key, rfl⟩ := List.exists_cons_of_ne_nil hk.1
  exact hk.2.1.1

theorem colon_mem_pair : ':' ∈ pair key space value :=
  List.mem_append_right _ List.mem_cons_self

/-- A pair is cut at the colon after its key, whatever colons its value holds. -/
theorem keyText_pair (hk : IsKey key) (hb : isAllBlank b = true) :
    keyText (b ++ pair key space value) = key := by
  have hcolon : ':' ∉ b ++ key := by
    rw [List.mem_append, not_or]
    exact ⟨notMem_of_isAllBlank (by decide) hb, hk.2.2.1⟩
  have hkey := trim_around hb hk.2.1 (a := []) rfl
  rw [List.append_nil] at hkey
  rw [pair, ← List.append_assoc, keyText_append hcolon, hkey]

theorem valueText_pair (hk : IsKey key) (hb : isAllBlank b = true)
    (hspace : isAllBlank space = true) (hv : Trimmed value) :
    valueText (b ++ pair key space value) = value := by
  have hcolon : ':' ∉ b ++ key := by
    rw [List.mem_append, not_or]
    exact ⟨notMem_of_isAllBlank (by decide) hb, hk.2.2.1⟩
  have hvalue := trim_around hspace hv (a := []) rfl
  rw [List.append_nil] at hvalue
  rw [pair, ← List.append_assoc, valueText_append hcolon, hvalue]

/-- Of a pair without value, trimming takes the space too. -/
theorem trimRight_pair (b key : List Char) (hspace : isAllBlank space = true) (hv : Trimmed value) :
    ∃ space', isAllBlank space' = true ∧
      trimRight (b ++ pair key space value) = b ++ pair key space' value := by
  cases value with
  | nil =>
    refine ⟨[], rfl, ?_⟩
    have hline : b ++ pair key space [] = (b ++ key ++ [':']) ++ space := by simp [pair]
    rw [hline, trimRight_append_right hspace, trimRight_eq_self]
    · simp [pair]
    · intro c hc
      obtain rfl : ':' = c := by simpa using hc
      decide
  | cons d value =>
    -- the end of the line is the end of the value, which is not blank
    refine ⟨space, hspace, trimRight_eq_self ?_⟩
    have hline : b ++ pair key space (d :: value) = (b ++ key ++ ':' :: space) ++ d :: value := by
      simp [pair]
    rw [hline, List.getLast?_append, List.getLast?_cons]
    intro c hc
    exact hv.2 c (List.getLast?_cons ▸ hc)

/-! ## Reading a line -/

theorem isKeyLine_pair (hk : IsKey key) : IsKeyLine (pair key space value) :=
  ⟨colon_mem_pair, not_prefix_of_head hk.head_pair⟩

/-- A pair at the margin is a key, however its value starts. -/
theorem classify_pair (hk : IsKey key) (hspace : isAllBlank space = true) (hv : Trimmed value) :
    Line.classify (pair key space value) = .key key value := by
  have hline : IsKeyLine (pair key space value) := isKeyLine_pair hk
  have hkey : keyText (pair key space value) = key := keyText_pair (b := []) hk rfl
  have hvalue : valueText (pair key space value) = value :=
    valueText_pair (b := []) hk rfl hspace hv
  rw [classify_eq, if_neg hline.not_item, if_neg hline.not_entry, if_pos hline, hkey, hvalue]

/-- A pair does not look like the text of an item, if its key does not. -/
theorem not_dash_prefix_pair (hk : IsKey key) (hdash : ¬ "- ".toList <+: key) :
    ¬ "- ".toList <+: pair key space value := by
  intro h
  obtain ⟨c, key, rfl⟩ := List.exists_cons_of_ne_nil hk.1
  have hchars : ['-', ' '] <+: c :: (key ++ ':' :: (space ++ value)) := h
  obtain ⟨rfl, hrest⟩ := List.cons_prefix_cons.mp hchars
  cases key with
  | nil => exact absurd (List.cons_prefix_cons.mp hrest).1 (by decide)
  | cons d key =>
    obtain ⟨rfl, -⟩ := List.cons_prefix_cons.mp hrest
    exact hdash ⟨key, rfl⟩

theorem isEntryLine_pair (hk : IsKey key) (hdash : ¬ "- ".toList <+: key) :
    IsEntryLine ("  ".toList ++ pair key space value) := by
  refine ⟨?_, List.prefix_append _ _, List.mem_append_right _ colon_mem_pair⟩
  -- behind the two spaces stands the key, so neither a hyphen and a space nor more spaces
  rintro (hitem | hdeep)
  · exact not_dash_prefix_pair hk hdash ((List.prefix_append_right_inj "  ".toList).mp hitem)
  · exact not_prefix_of_head hk.head_pair ((List.prefix_append_right_inj "  ".toList).mp hdeep)

/-- An indented pair is an entry. -/
theorem classify_indented_pair (hk : IsKey key) (hdash : ¬ "- ".toList <+: key)
    (hspace : isAllBlank space = true) (hv : Trimmed value) :
    Line.classify ("  ".toList ++ pair key space value) = .entry key value := by
  have hline : IsEntryLine ("  ".toList ++ pair key space value) := isEntryLine_pair hk hdash
  rw [classify_eq, if_neg hline.1, if_pos hline, keyText_pair hk (by decide),
    valueText_pair hk (by decide) hspace hv]

/-- Of the text of an item, the hyphens and spaces at its start are lost. -/
theorem itemText_append (hne : item ≠ []) (htrimmed : Trimmed item) :
    itemText ("  - ".toList ++ item) = trim (item.dropWhile fun c => c == '-' || c == ' ') := by
  have hline : trim ("  - ".toList ++ item) = "- ".toList ++ item := by
    have hhyphen : Trimmed ['-'] := trimmed_singleton (by decide)
    have hcore : Trimmed (['-'] ++ [' '] ++ item) :=
      hhyphen.append htrimmed (List.cons_ne_nil _ _) hne
    have haround := trim_around (b := "  ".toList) (by decide) hcore (a := []) rfl
    rwa [List.append_nil] at haround
  have hdash : ∀ c ∈ "- ".toList, (c == '-' || c == ' ') = true := by simp
  rw [itemText, hline, List.dropWhile_append_of_pos hdash]

theorem classify_dash (item : List Char) :
    Line.classify ("  - ".toList ++ item) = .item (itemText ("  - ".toList ++ item)) := by
  rw [classify_eq, if_pos (.inl (List.prefix_append _ _))]

theorem dropWhile_dash_eq_self (htrimmed : Trimmed item) (hdash : item.head? ≠ some '-') :
    item.dropWhile (fun c => c == '-' || c == ' ') = item := by
  cases item with
  | nil => rfl
  | cons c item =>
    have hhyphen : c ≠ '-' := fun he => hdash (he ▸ rfl)
    have hspace : c ≠ ' ' := fun he => absurd (he ▸ htrimmed.1 c rfl) (by decide)
    exact List.dropWhile_cons_of_neg (by simp [hhyphen, hspace])

/-- The text of an item that does not start with a hyphen is read as it is. -/
theorem classify_item (hitem : IsItem item) :
    Line.classify ("  - ".toList ++ item) = .item item := by
  obtain ⟨hne, htrimmed, -, hdash⟩ := hitem
  rw [classify_dash, itemText_append hne htrimmed, dropWhile_dash_eq_self htrimmed hdash,
    trim_eq_self htrimmed]

/-! ## Reading lines -/

/-- A line of a header: it is not blank, and means the same without the blanks at its end. -/
structure Legible (line : List Char) : Prop where
  oneLine : '\n' ∉ line
  notBlank : isAllBlank line = false
  steady : Line.classify (trimRight line) = Line.classify line

/-- **Lines are read one by one.**  The blanks around the text are those at the end of its
last line. -/
theorem lines_terminated {texts : List (List Char)} (hne : texts ≠ [])
    (hlegible : ∀ line ∈ texts, Legible line)
    (hhead : ∀ c ∈ (texts.flatMap (· ++ ['\n'])).head?, isBlank c = false) :
    Restricted.lines (texts.flatMap (· ++ ['\n'])) = texts.map Line.classify := by
  obtain ⟨init, last, rfl⟩ : ∃ init last, texts = init ++ [last] :=
    ⟨_, _, (List.dropLast_concat_getLast hne).symm⟩
  obtain ⟨hinit, hlast⟩ := List.forall_mem_append.mp hlegible
  have hlast := hlast last (List.mem_singleton_self last)
  have htrim : trim ((init ++ [last]).flatMap (· ++ ['\n'])) =
      init.flatMap (· ++ ['\n']) ++ trimRight last := by
    have htext : (init ++ [last]).flatMap (· ++ ['\n']) =
        (init.flatMap (· ++ ['\n']) ++ last) ++ ['\n'] := by simp
    rw [trim, trimLeft_eq_self hhead, htext, trimRight_append_right (by decide),
      trimRight_append hlast.notBlank]
  have hsplit := splitLines_terminated (fun h => hlast.oneLine (mem_of_mem_trimRight h))
    fun line hline => (hinit line hline).oneLine
  rw [Restricted.lines, htrim, hsplit, List.map_append, List.map_append]
  exact congrArg (init.map Line.classify ++ [·]) hlast.steady

theorem legible_pair (hk : IsKey key) (hv : Trimmed value) (hline : '\n' ∉ value)
    (hspace : isAllBlank space = true) (hspace' : '\n' ∉ space) :
    Legible (pair key space value) where
  oneLine := by simp [pair, hk.2.2.2, hline, hspace']
  notBlank := not_isAllBlank_of_mem colon_mem_pair (by decide)
  steady := by
    obtain ⟨space', hblank, htrim⟩ := trimRight_pair [] key hspace hv
    have htrim : trimRight (pair key space value) = pair key space' value := htrim
    rw [htrim, classify_pair hk hblank hv, classify_pair hk hspace hv]

theorem legible_indented_pair (hk : IsKey key) (hdash : ¬ "- ".toList <+: key)
    (hv : Trimmed value) (hline : '\n' ∉ value) (hspace : isAllBlank space = true)
    (hspace' : '\n' ∉ space) : Legible ("  ".toList ++ pair key space value) where
  oneLine := by simp [pair, hk.2.2.2, hline, hspace']
  notBlank := not_isAllBlank_of_mem (List.mem_append_right _ colon_mem_pair) (by decide)
  steady := by
    obtain ⟨space', hblank, htrim⟩ := trimRight_pair "  ".toList key hspace hv
    rw [htrim, classify_indented_pair hk hdash hblank hv,
      classify_indented_pair hk hdash hspace hv]

theorem legible_item (hne : item ≠ []) (htrimmed : Trimmed item) (hline : '\n' ∉ item) :
    Legible ("  - ".toList ++ item) where
  oneLine := by simp [hline]
  notBlank := not_isAllBlank_of_mem (c := '-') (by simp) (by decide)
  steady := by
    rw [trimRight_eq_self]
    rw [List.getLast?_append, List.getLast?_eq_some_getLast hne]
    intro c hc
    exact htrimmed.2 c (List.getLast?_eq_some_getLast hne ▸ hc)

end SkillLint.Header.Restricted
