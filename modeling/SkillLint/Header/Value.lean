import SkillLint.Decimal.Shortest

/-!
# Header values and mappings

A skill header, like a workflow record, is structured data: a `Value` is a scalar, a
list of values or a mapping from texts to values.  A `Mapping` keeps its keys in the
order in which they were first inserted, and inserting a key again replaces its value
where it stands.

Rules ask for a value in three ways.  `Mapping.get?` finds what is under a key.
`Mapping.present?` finds it unless it is null.  `Mapping.text` is the text of a scalar
and the empty text for everything else.
-/

namespace SkillLint

/-- Structured data. -/
inductive Value where
  | null
  | bool (value : Bool)
  | int (value : Int)
  | float (value : Binary64)
  | string (value : String)
  | list (items : List Value)
  | map (entries : List (String × Value))
  deriving Inhabited

/-- Keys with their values, each key once, in the order of first insertion. -/
structure Mapping where
  entries : List (String × Value)
  deriving Inhabited

namespace Mapping

/-- The mapping without keys. -/
def empty : Mapping := ⟨[]⟩

/-- Replaces the value of the first entry with the key, or adds an entry at the end. -/
def insertEntry (key : String) (value : Value) : List (String × Value) → List (String × Value)
  | [] => [(key, value)]
  | (k, v) :: rest => if k = key then (k, value) :: rest else (k, v) :: insertEntry key value rest

/-- The mapping with the value under the key. -/
def insert (m : Mapping) (key : String) (value : Value) : Mapping :=
  ⟨insertEntry key value m.entries⟩

/-- The mapping that arises by inserting the pairs one after another. -/
def ofList (pairs : List (String × Value)) : Mapping :=
  pairs.foldl (fun m (key, value) => m.insert key value) empty

/-- The value under the key. -/
def get? (m : Mapping) (key : String) : Option Value := m.entries.lookup key

/-- The key has a value, possibly null. -/
def contains (m : Mapping) (key : String) : Bool := (m.get? key).isSome

/-- The keys in their order. -/
def keys (m : Mapping) : List String := m.entries.map Prod.fst

/-- The number of keys. -/
def size (m : Mapping) : Nat := m.entries.length

/-- There are no keys. -/
def isEmpty (m : Mapping) : Bool := m.entries.isEmpty

end Mapping

namespace Value

/-- The value is null. -/
def isNull : Value → Bool
  | null => true
  | _ => false

/-- The text of a string value. -/
def asString? : Value → Option String
  | string s => some s
  | _ => none

/-- The items of a list. -/
def asList? : Value → Option (List Value)
  | list items => some items
  | _ => none

/-- The mapping that the value is. -/
def asMap? : Value → Option Mapping
  | map entries => some ⟨entries⟩
  | _ => none

/-- The kind of the value, as messages name it. -/
def typeName : Value → String
  | null => "null"
  | bool _ => "bool"
  | int _ => "integer"
  | float _ => "float"
  | string _ => "string"
  | list _ => "list"
  | map _ => "mapping"

/-- The text of a truth value. -/
def boolText (b : Bool) : String := if b then "true" else "false"

/-- The text of a scalar; null, lists and mappings have none. -/
def scalarText? : Value → Option String
  | string s => some s
  | bool b => some (boolText b)
  | int n => some (toString n)
  | float x => some x.toText
  | null | list _ | map _ => none

mutual

/-- The value as messages show it: strings bare, lists in brackets, mappings in
braces. -/
def display : Value → String
  | null => "null"
  | bool b => boolText b
  | int n => toString n
  | float x => x.toText
  | string s => s
  | list items => "[" ++ ", ".intercalate (displayItems items) ++ "]"
  | map entries => "\x7b" ++ ", ".intercalate (displayEntries entries) ++ "\x7d"

/-- The items of a list, each as messages show it. -/
def displayItems : List Value → List String
  | [] => []
  | v :: rest => v.display :: displayItems rest

/-- The entries of a mapping, each as its key and its value. -/
def displayEntries : List (String × Value) → List String
  | [] => []
  | (key, v) :: rest => (key ++ ": " ++ v.display) :: displayEntries rest

end

mutual

/-- Equality of data.  Numbers are compared as numbers, so a not-a-number makes a
value differ from itself. -/
def eqv : Value → Value → Bool
  | null, null => true
  | bool a, bool b => a == b
  | int a, int b => a == b
  | float a, float b => a.numEq b
  | string a, string b => a == b
  | list a, list b => eqvItems a b
  | map a, map b => eqvEntries a b
  | _, _ => false

/-- Lists are equal when their items are, one by one. -/
def eqvItems : List Value → List Value → Bool
  | [], [] => true
  | a :: as, b :: bs => a.eqv b && eqvItems as bs
  | _, _ => false

/-- Mappings are equal when their entries are, one by one. -/
def eqvEntries : List (String × Value) → List (String × Value) → Bool
  | [], [] => true
  | (k, a) :: as, (l, b) :: bs => k == l && a.eqv b && eqvEntries as bs
  | _, _ => false

end

end Value

namespace Mapping

/-- The value under the key, unless it is null. -/
def present? (m : Mapping) (key : String) : Option Value :=
  (m.get? key).filter fun v => !v.isNull

/-- The text of the scalar under the key; empty when there is none. -/
def text (m : Mapping) (key : String) : String :=
  ((m.get? key).bind Value.scalarText?).getD ""

/-- The items of the list under the key that are mappings. -/
def mappings (m : Mapping) (key : String) : List Mapping :=
  (((m.get? key).bind Value.asList?).getD []).filterMap Value.asMap?

end Mapping

end SkillLint
