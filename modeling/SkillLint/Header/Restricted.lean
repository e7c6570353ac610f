import SkillLint.Header.Value
import SkillLint.Text.Blank
import SkillLint.Text.Lines
import SkillLint.Text.Search

/-!
# The restricted header grammar

A header can be read without a full YAML reader, by lines alone.  Every line is one of
four kinds (`Line.classify`): an **item** `  - text`, an **entry** `  key: value`, a
**key** `key: value` at the margin, or a line that means nothing.  A key without a
value opens a block; the first item or entry of the block decides whether it holds a
list or a mapping, and lines of the other kind in it are passed over.  Every value is a
string, and one pair of wrapping double quotes is taken off a value (not off an item).

Reading never fails.  The reader goes line by line over a `State`: the mapping so far
and the block that is open.  A block is stored when the next key closes it, unless it is
empty or its key is; the block still open at the end is always stored, as an empty
mapping if nothing was in it.
-/

namespace SkillLint.Header.Restricted

open SkillLint.Text

/-- What a line of a header is. -/
inductive Line where
  | item (text : List Char)
  | entry (key value : List Char)
  | key (key value : List Char)
  | other
  deriving Repr, DecidableEq

/-- The texts around the first colon, both trimmed; without a colon, all of the line
is key. -/
def splitPair (line : List Char) : List Char × List Char :=
  match cutAt? [':'] line with
  | some (key, value) => (trim key, trim value)
  | none => (trim line, [])

/-- The value without a double quote at both ends, if both are there.  A lone double
quote is both ends at once. -/
def stripQuotes (value : List Char) : List Char :=
  match value with
  | '"' :: rest => if value.getLast? = some '"' then rest.dropLast else value
  | _ => value

/-- The text of an item line: what follows its dashes and spaces. -/
def itemText (line : List Char) : List Char :=
  trim ((trim line).dropWhile fun c => c == '-' || c == ' ')

namespace Line

/-- Items start with two or four spaces and a dash; entries are other indented lines
with a colon; keys have a colon and start without a space. -/
def classify (line : List Char) : Line :=
  if isAllBlank line then .other
  else if startsWith "  - ".toList line || startsWith "    - ".toList line then
    .item (itemText line)
  else if startsWith "  ".toList line && line.contains ':' then
    let pair := splitPair (trim line)
    .entry pair.1 pair.2
  else if line.contains ':' && !startsWith " ".toList line then
    let pair := splitPair line
    .key pair.1 pair.2
  else .other

end Line

/-- The children of a block: their kind is open until the first one. -/
inductive Children where
  | none
  | items (items : List Value)
  | entries (entries : Mapping)

/-- A key without a value, and what followed it so far. -/
structure Block where
  key : String
  children : Children

namespace Block

/-- The block with one more item, if it is none that holds entries. -/
def addItem (b : Block) (text : List Char) : Block :=
  match b.children with
  | .none => { b with children := .items [.string (String.ofList text)] }
  | .items items => { b with children := .items (items ++ [.string (String.ofList text)]) }
  | .entries _ => b

/-- The block with one more entry, if it is none that holds items. -/
def addEntry (b : Block) (key value : List Char) : Block :=
  let add (m : Mapping) : Mapping :=
    m.insert (String.ofList key) (.string (String.ofList (stripQuotes value)))
  match b.children with
  | .none => { b with children := .entries (add .empty) }
  | .entries entries => { b with children := .entries (add entries) }
  | .items _ => b

/-- The value of the block, if it has children. -/
def value? (b : Block) : Option Value :=
  match b.children with
  | .none => none
  | .items items => some (.list items)
  | .entries entries => some (.map entries.entries)

end Block

/-- The mapping read so far and the open block. -/
structure State where
  result : Mapping
  block : Option Block

namespace State

/-- Before the first line. -/
def start : State := ⟨.empty, none⟩

/-- Closes the open block before the next key.  A block without children or with an
empty key leaves nothing. -/
def close (s : State) : Mapping :=
  match s.block with
  | none => s.result
  | some b =>
    match b.value? with
    | some v => if b.key = "" then s.result else s.result.insert b.key v
    | none => s.result

/-- Closes the open block at the end of the header.  A block without children is an
empty mapping. -/
def finish (s : State) : Mapping :=
  match s.block with
  | none => s.result
  | some b => s.result.insert b.key (b.value?.getD (.map []))

/-- The state after one more line. -/
def step (s : State) : Line → State
  | .other => s
  | .item text => { s with block := s.block.map (·.addItem text) }
  | .entry key value => { s with block := s.block.map (·.addEntry key value) }
  | .key key value =>
    if value = [] then ⟨s.close, some ⟨String.ofList key, .none⟩⟩
    else ⟨s.close.insert (String.ofList key) (.string (String.ofList (stripQuotes value))), none⟩

end State

/-- The lines of a header: blanks around the whole text do not count. -/
def lines (text : List Char) : List Line := (splitLines (trim text)).map Line.classify

/-- Reads a header by lines. -/
def parse (text : String) : Mapping :=
  ((lines text.toList).foldl State.step State.start).finish

end SkillLint.Header.Restricted
