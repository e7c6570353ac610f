import SkillLint.Proofs.Header.LineKinds

/-!
# The restricted grammar by sections

Seen as a whole, a header is a list of sections: a key line and its children, the items and entries
up to the next key line (`sections`).  A section adds one pair to the mapping, or none
(`Section.pair?`).  A key with a value adds that, whatever stands below it; a key without one adds
what its children hold (`held`), a list if the first child is an item and a mapping otherwise.
Whether an empty block, or one without a key, adds anything depends on one thing outside of the
section: is there another section behind it?

The parser goes over the lines once and keeps the block that is open.  **It reads what the sections
say** (`parse_eq_sections`).  The induction is on the lines to come, for an arbitrary state
(`finish_foldl`): the children at their start go to the block that is open (`State.below`), the next
key closes it, and if there is no next key, the end of the header does (`State.ended`).
-/

namespace SkillLint.Mapping

/-- The mapping with the pairs inserted one after another. -/
def insertAll (m : Mapping) (pairs : List (String × Value)) : Mapping :=
  pairs.foldl (fun m p => m.insert p.1 p.2) m

@[simp] theorem insertAll_nil (m : Mapping) : m.insertAll [] = m := rfl

@[simp] theorem insertAll_cons (m : Mapping) (p : String × Value) (pairs : List (String × Value)) :
    m.insertAll (p :: pairs) = (m.insert p.1 p.2).insertAll pairs := rfl

theorem insertAll_append (m : Mapping) (ps qs : List (String × Value)) :
    m.insertAll (ps ++ qs) = (m.insertAll ps).insertAll qs := List.foldl_append

theorem ofList_eq_insertAll (pairs : List (String × Value)) :
    ofList pairs = empty.insertAll pairs := rfl

end SkillLint.Mapping

namespace SkillLint.Header.Restricted

open SkillLint.Text

variable {line : List Char} {lines children : List (List Char)} {key : String}

/-! ## Sections and what they add -/

/-- The lines of a header that are not blank, without the blanks around the whole text. -/
def contentLines (text : String) : List (List Char) :=
  (splitLines (trim text.toList)).filter fun line => !isAllBlank line

/-- A key line with its children. -/
structure Section where
  keyLine : List Char
  children : List (List Char)
  deriving Repr, DecidableEq

/-- The items and entries up to the next key line. -/
def childrenIn (lines : List (List Char)) : List (List Char) :=
  (lines.takeWhile fun line => ¬ IsKeyLine line).filter fun line =>
    IsItemLine line ∨ IsEntryLine line

/-- The key lines of a header, each with the children below it. -/
def sections : List (List Char) → List Section
  | [] => []
  | line :: rest =>
    if IsKeyLine line then ⟨line, childrenIn rest⟩ :: sections rest else sections rest

/-- The text of an item line as a value. -/
def itemValue (line : List Char) : Value := .string (String.ofList (itemText line))

/-- Key and value of an entry or key line, the value without quotes around it. -/
def linePair (line : List Char) : String × Value :=
  (String.ofList (keyText line), .string (String.ofList (stripQuotes (valueText line))))

/-- What children hold: all the items if the first child is one, otherwise all the entries. -/
def held (children : List (List Char)) : Value :=
  if children.head?.any (IsItemLine ·) then
    .list ((children.filter (IsItemLine ·)).map itemValue)
  else .map (Mapping.ofList ((children.filter (IsEntryLine ·)).map linePair)).entries

/-- The pair that a section adds.  Before another section, a block without children or with an
empty key adds none. -/
def Section.pair? (s : Section) (last : Bool) : Option (String × Value) :=
  if valueText s.keyLine ≠ [] then some (linePair s.keyLine)
  else if last = false ∧ (keyText s.keyLine = [] ∨ s.children = []) then none
  else some (String.ofList (keyText s.keyLine), held s.children)

/-- The pairs that sections add. -/
def pairs : List Section → List (String × Value)
  | [] => []
  | s :: rest => (s.pair? rest.isEmpty).toList ++ pairs rest

theorem childrenIn_cons_of_key (h : IsKeyLine line) : childrenIn (line :: lines) = [] := by
  simp [childrenIn, h]

theorem childrenIn_cons_of_not_key (h : ¬ IsKeyLine line) : childrenIn (line :: lines) =
    if IsItemLine line ∨ IsEntryLine line then line :: childrenIn lines else childrenIn lines := by
  simp [childrenIn, h, List.filter_cons]

theorem isChild_of_mem_childrenIn (h : line ∈ childrenIn lines) :
    IsItemLine line ∨ IsEntryLine line :=
  of_decide_eq_true (List.mem_filter.mp h).2

/-! ## Children of an open block -/

namespace Block

/-- The block with one more line, if it is an item or an entry. -/
def read (b : Block) (line : List Char) : Block :=
  if IsItemLine line then b.addItem (itemText line)
  else if IsEntryLine line then b.addEntry (keyText line) (valueText line)
  else b

theorem foldl_read_items (items : List Value) :
    children.foldl read ⟨key, .items items⟩ =
      ⟨key, .items (items ++ (children.filter (IsItemLine ·)).map itemValue)⟩ := by
  induction children generalizing items with
  | nil => simp
  | cons line rest ih =>
    by_cases hitem : IsItemLine line
    · have hread : read ⟨key, .items items⟩ line = ⟨key, .items (items ++ [itemValue line])⟩ := by
        rw [read, if_pos hitem]
        rfl
      rw [List.foldl_cons, hread, ih]
      simp [hitem]
    · have hread : read ⟨key, .items items⟩ line = ⟨key, .items items⟩ := by
        rw [read, if_neg hitem]
        split <;> rfl
      rw [List.foldl_cons, hread, ih]
      simp [hitem]

theorem foldl_read_entries (m : Mapping) :
    children.foldl read ⟨key, .entries m⟩ =
      ⟨key, .entries (m.insertAll ((children.filter (IsEntryLine ·)).map linePair))⟩ := by
  induction children generalizing m with
  | nil => simp
  | cons line rest ih =>
    by_cases hentry : IsEntryLine line
    · have hread : read ⟨key, .entries m⟩ line =
          ⟨key, .entries (m.insert (linePair line).1 (linePair line).2)⟩ := by
        rw [read, if_neg hentry.1, if_pos hentry]
        rfl
      rw [List.foldl_cons, hread, ih]
      simp [hentry]
    · have hread : read ⟨key, .entries m⟩ line = ⟨key, .entries m⟩ := by
        rw [read, if_neg hentry]
        split <;> rfl
      rw [List.foldl_cons, hread, ih]
      simp [hentry]

/-- **The first child decides what a block holds.** -/
theorem value?_foldl_read (key : String)
    (hchildren : ∀ line ∈ children, IsItemLine line ∨ IsEntryLine line) :
    (children.foldl read ⟨key, .none⟩).key = key ∧ (children.foldl read ⟨key, .none⟩).value? =
      if children = [] then none else some (held children) := by
  cases children with
  | nil => exact ⟨rfl, rfl⟩
  | cons first rest =>
    rw [List.foldl_cons]
    by_cases hitem : IsItemLine first
    · have hread : read ⟨key, .none⟩ first = ⟨key, .items [itemValue first]⟩ := by
        rw [read, if_pos hitem]
        rfl
      rw [hread, foldl_read_items]
      simp [value?, held, hitem]
    · have hentry := (hchildren first List.mem_cons_self).resolve_left hitem
      have hread : read ⟨key, .none⟩ first =
          ⟨key, .entries (Mapping.empty.insert (linePair first).1 (linePair first).2)⟩ := by
        rw [read, if_neg hitem, if_pos hentry]
        rfl
      rw [hread, foldl_read_entries]
      simp [value?, held, hitem, hentry, Mapping.ofList_eq_insertAll]

end Block

/-! ## The run of the parser -/

namespace State

/-- The state after the children at the start of the lines. -/
def below (s : State) (lines : List (List Char)) : State :=
  { s with block := s.block.map ((childrenIn lines).foldl Block.read ·) }

/-- The mapping when the open block is closed, at the end of the header or by the next key. -/
def ended (s : State) (last : Bool) : Mapping := if last then s.finish else s.close

/-- Before a key there are no children. -/
theorem below_of_childrenIn_eq_nil (s : State) (h : childrenIn lines = []) : s.below lines = s := by
  rw [below, h]
  simp

theorem step_of_not_key (s : State) (h : ¬ IsKeyLine line) :
    s.step (Line.classify line) = { s with block := s.block.map (·.read line) } := by
  rw [classify_eq]
  by_cases hitem : IsItemLine line
  · simp [hitem, step, Block.read]
  by_cases hentry : IsEntryLine line
  · simp [hitem, hentry, step, Block.read]
  · simp [hitem, hentry, h, step, Block.read]

/-- A line that is no key goes to the open block. -/
theorem below_cons_of_not_key (s : State) (h : ¬ IsKeyLine line) :
    s.below (line :: lines) = (s.step (Line.classify line)).below lines := by
  rw [step_of_not_key s h, below, below, childrenIn_cons_of_not_key h, Option.map_map]
  by_cases hchild : IsItemLine line ∨ IsEntryLine line
  · rw [if_pos hchild]
    rfl
  · have hread : ∀ b : Block, b.read line = b := by
      intro b
      rw [not_or] at hchild
      rw [Block.read, if_neg hchild.1, if_neg hchild.2]
    rw [if_neg hchild]
    simp only [Function.comp_def, hread]

theorem step_of_key (s : State) (h : IsKeyLine line) : s.step (Line.classify line) =
    if valueText line = [] then ⟨s.close, some ⟨String.ofList (keyText line), .none⟩⟩
    else ⟨s.close.insert (linePair line).1 (linePair line).2, none⟩ := by
  rw [classify_eq, if_neg h.not_item, if_neg h.not_entry, if_pos h]
  rfl

/-- **A section adds its pair**, once the block that it opens is closed. -/
theorem ended_below_step (s : State) (h : IsKeyLine line) (last : Bool) :
    ((s.step (Line.classify line)).below lines).ended last =
      s.close.insertAll (Section.pair? ⟨line, childrenIn lines⟩ last).toList := by
  rw [step_of_key s h]
  by_cases hvalue : valueText line = []
  case neg =>
    rw [if_neg hvalue, Section.pair?, if_pos hvalue]
    cases last <;> rfl
  have hchildren : ∀ child ∈ childrenIn lines, IsItemLine child ∨ IsEntryLine child :=
    fun _ => isChild_of_mem_childrenIn
  obtain ⟨hkey, hheld⟩ := Block.value?_foldl_read (String.ofList (keyText line)) hchildren
  rw [if_pos hvalue, Section.pair?, if_neg (not_not_intro hvalue), below, Option.map_some]
  generalize (childrenIn lines).foldl Block.read ⟨String.ofList (keyText line), .none⟩ = b at *
  by_cases hnone : childrenIn lines = []
  · -- an empty block is an empty mapping at the end of the header, and nothing before
    have hempty : held [] = .map [] := rfl
    rw [if_pos hnone] at hheld
    cases last <;> simp [ended, finish, close, hkey, hheld, hnone, hempty]
  rw [if_neg hnone] at hheld
  cases last with
  | true => simp [ended, finish, hkey, hheld]
  | false => by_cases hempty : keyText line = [] <;> simp [ended, close, hkey, hheld, hnone, hempty]

/-- **What the parser makes of the lines to come**: their first children belong to the block that is
open, and the sections behind these add their pairs. -/
theorem finish_foldl (s : State) (lines : List (List Char)) :
    ((lines.map Line.classify).foldl step s).finish =
      ((s.below lines).ended (sections lines).isEmpty).insertAll (pairs (sections lines)) := by
  induction lines generalizing s with
  | nil =>
    rw [below_of_childrenIn_eq_nil s rfl]
    rfl
  | cons line rest ih =>
    rw [List.map_cons, List.foldl_cons, ih]
    by_cases hkey : IsKeyLine line
    · rw [below_of_childrenIn_eq_nil s (childrenIn_cons_of_key hkey), sections, if_pos hkey, pairs,
        Mapping.insertAll_append, ended_below_step s hkey]
      rfl
    · rw [below_cons_of_not_key s hkey, sections, if_neg hkey]

end State

/-- The parser passes over blank lines. -/
theorem foldl_step_filter (lines : List (List Char)) : ∀ s : State,
    (lines.map Line.classify).foldl State.step s =
      ((lines.filter fun line => !isAllBlank line).map Line.classify).foldl State.step s := by
  induction lines with
  | nil => exact fun s => rfl
  | cons line rest ih =>
    intro s
    rw [List.map_cons, List.foldl_cons, ih]
    cases hblank : isAllBlank line with
    | true =>
      rw [classify_of_isAllBlank hblank, List.filter_cons_of_neg (by simp [hblank])]
      rfl
    | false => rw [List.filter_cons_of_pos (by simp [hblank]), List.map_cons, List.foldl_cons]

/-- What the parser reads are the lines that are not blank. -/
theorem parse_eq_foldl (text : String) :
    parse text = (((contentLines text).map Line.classify).foldl State.step State.start).finish :=
  congrArg State.finish (foldl_step_filter _ _)

/-- **The parser reads what the sections of the header say.** -/
theorem parse_eq_sections (text : String) :
    parse text = Mapping.ofList (pairs (sections (contentLines text))) := by
  rw [parse_eq_foldl, State.finish_foldl, Mapping.ofList_eq_insertAll]
  cases (sections (contentLines text)).isEmpty <;> rfl

end SkillLint.Header.Restricted
