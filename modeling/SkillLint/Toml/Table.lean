/-!
# TOML tables

A TOML document builds its tables piece by piece, and the format has rules on which
pieces may meet: a key is given once, a table has one header, a table written inline is
complete, and a table that grows by dotted keys grows by nothing else.  A `Table` knows
how it came about (`Origin`), and the operations here answer `none` where a rule is
broken:

* `define?` gives a value to a key, reached through the tables of a dotted key;
* `openTable?` opens the table of a header;
* `openElement?` opens a new table at the end of an array of tables.

A header leads through tables as they are, and through an array of tables to its last
element (`modify?`).
-/

namespace SkillLint.Toml

/-- How a table came about. -/
inductive Origin where
  /-- By its header; so is the top of the document. -/
  | header
  /-- On the way to the table of a header. -/
  | implied
  /-- On the way to the value of a dotted key. -/
  | dotted
  /-- Written inline. -/
  | inlined
  deriving Repr, DecidableEq

/-- A TOML value.  Floating point numbers and dates are known to be well-formed, and no
more is kept of them.  A number is `outOfRange` if it is a floating point number too large
for the format, or an integer that does not fit 128 bits. -/
inductive Value where
  | string (text : List Char)
  | integer (value : Int)
  | float
  | outOfRange
  | boolean (value : Bool)
  | date
  | array (items : List Value)
  | table (origin : Origin) (entries : List (List Char × Value))
  /-- The tables of repeated headers in double brackets, the last one first. -/
  | tables (elements : List (List (List Char × Value)))
  deriving Inhabited

/-- Keys with their values. -/
abbrev Entries := List (List Char × Value)

/-- A table under construction. -/
structure Table where
  origin : Origin
  entries : Entries

namespace Table

/-- The value under a key. -/
def get? (t : Table) (key : List Char) : Option Value := t.entries.lookup key

/-- Replaces the value under the key, or adds it. -/
def setEntry (key : List Char) (value : Value) : Entries → Entries
  | [] => [(key, value)]
  | (k, v) :: rest => if k = key then (k, value) :: rest else (k, v) :: setEntry key value rest

/-- The table with the value under the key. -/
def set (t : Table) (key : List Char) (value : Value) : Table :=
  { t with entries := setEntry key value t.entries }

/-- Changes the table at the end of a path.  Missing tables on the way get the `origin`.
A path of a dotted key may not lead through the table of a header, unless that is an
element of an array of tables, and no path leads through an inline table. -/
def modify? (origin : Origin) (change : Table → Option Table) :
    List (List Char) → Table → Option Table
  | [], t => change t
  | key :: rest, t => do
    match t.get? key with
    | none =>
      let child ← modify? origin change rest ⟨origin, []⟩
      some (t.set key (.table child.origin child.entries))
    | some (.table kind entries) =>
      if kind = .inlined || (origin = .dotted && kind = .header) then none
      let child ← modify? origin change rest ⟨kind, entries⟩
      some (t.set key (.table child.origin child.entries))
    | some (.tables (last :: others)) =>
      let child ← modify? origin change rest ⟨.header, last⟩
      some (t.set key (.tables (child.entries :: others)))
    | some _ => none

/-- Gives a value to a new key. -/
def insertNew? (key : List Char) (value : Value) (t : Table) : Option Table :=
  if (t.get? key).isSome then none else some (t.set key value)

/-- Gives a value to a key of this table, or of one that the dotted `path` leads to; that
one may have grown by dotted keys only. -/
def define? (path : List (List Char)) (key : List Char) (value : Value) (t : Table) :
    Option Table :=
  modify? .dotted (fun inner =>
    if (inner.origin = .dotted) = path.isEmpty then none else insertNew? key value inner) path t

/-- Opens the table of a header.  It may exist already, if it was only implied. -/
def openTable? (path : List (List Char)) (key : List Char) (t : Table) : Option Table :=
  modify? .implied (fun parent =>
    match parent.get? key with
    | none => some (parent.set key (.table .header []))
    | some (.table .implied entries) => some (parent.set key (.table .header entries))
    | some _ => none) path t

/-- Opens a new table at the end of an array of tables. -/
def openElement? (path : List (List Char)) (key : List Char) (t : Table) : Option Table :=
  modify? .implied (fun parent =>
    match parent.get? key with
    | none => some (parent.set key (.tables [[]]))
    | some (.tables elements) => some (parent.set key (.tables ([] :: elements)))
    | some _ => none) path t

end Table

end SkillLint.Toml
