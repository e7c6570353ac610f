/-!
# Settings

A configuration is written as structured text, and more than one format will do for it.
A `Setting` is what these formats have in common: texts, numbers, lists and named groups.
A value that no configuration asks for is `other`.

A group may also be written as a list of its values in the order of its fields.  How
strict a format is about the length of such a list, and what it writes for "nothing", is
its `Format`.
-/

namespace SkillLint

/-- A part of a configuration, as written. -/
inductive Setting where
  | text (value : String)
  | number (value : Nat)
  | list (items : List Setting)
  | group (entries : List (String × Setting))
  /-- A date, where a format can write it. -/
  | date
  /-- A number that nothing can hold. -/
  | outOfRange
  /-- The absence of a value, where a format can write it. -/
  | null
  | other
  deriving Inhabited

/-- The habits of a format. -/
structure Setting.Format where
  /-- A list may stop before the last field of its group. -/
  shortLists : Bool
  /-- A list may go on after the last field of its group. -/
  longLists : Bool
  /-- The setting stands for nothing. -/
  isNothing : Setting → Bool

namespace Setting

/-- In JSON, a list may be too short, and null stands for nothing. -/
def Format.json : Format where
  shortLists := true
  longLists := false
  isNothing
    | null => true
    | _ => false

/-- In TOML, a list may be too long, and an empty table or array stands for nothing. -/
def Format.toml : Format where
  shortLists := false
  longLists := true
  isNothing
    | list items => items.isEmpty
    | group entries => entries.isEmpty
    | _ => false

mutual

/-- No number in the setting is out of range. -/
def inRange : Setting → Bool
  | outOfRange => false
  | list items => itemsInRange items
  | group entries => entriesInRange entries
  | text _ | number _ | date | null | other => true

/-- No number in the items is out of range. -/
def itemsInRange : List Setting → Bool
  | [] => true
  | item :: rest => item.inRange && itemsInRange rest

/-- No number in the entries is out of range. -/
def entriesInRange : List (String × Setting) → Bool
  | [] => true
  | (_, setting) :: rest => setting.inRange && entriesInRange rest

end

/-- The settings of a group by name.  The `fields` are the names of the group, in the
order in which a list gives their values.  A date is a group that has none of them.  A
number out of range spoils the group, also under a name that is none of its own; in the
surplus of a list it does not. -/
def entries? (format : Format) (fields : List String) (setting : Setting) :
    Option (List (String × Setting)) := do
  let entries ← match setting with
    | group entries => some entries
    | date => some []
    | list items =>
      if (format.shortLists || fields.length ≤ items.length) &&
          (format.longLists || items.length ≤ fields.length) then
        some (fields.zip items)
      else none
    | _ => none
  if entriesInRange entries then some entries else none

/-- The text that the setting is. -/
def asText? : Setting → Option String
  | text value => some value
  | _ => none

/-- The number that the setting is, if it is at most `bound`. -/
def asNumber? (bound : Nat) : Setting → Option Nat
  | number value => if value ≤ bound then some value else none
  | _ => none

/-- The word that the setting is.  A group of one entry that holds nothing is the name of
that entry. -/
def asWord? (format : Format) : Setting → Option String
  | text value => some value
  | group [(name, value)] => if format.isNothing value then some name else none
  | _ => none

/-- Reads a setting that may be missing; one that is there has to be readable. -/
def readIfGiven {α : Type} (read : Setting → Option α) : Option Setting → Option (Option α)
  | none => some none
  | some setting => (read setting).map some

end Setting

end SkillLint
