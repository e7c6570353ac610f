import SkillLint.Toml.Scalar

/-!
# TOML documents

A document is a sequence of lines: keys with values, headers of tables, and headers of
elements of arrays of tables.  A key belongs to the table of the header before it.
`parse?` reads a document as the table at its top, or answers `none` if the document is
malformed.
-/

namespace SkillLint.Toml

/-- The deepest nesting of arrays and inline tables. -/
def depthLimit : Nat := 80

mutual

/-- Reads a value, with `depth` more levels of nesting allowed.  The first argument bounds
the depth of calls. -/
def value? : Nat → Nat → List Char → Option (Value × List Char)
  | 0, _, _ => none
  | fuel + 1, depth, s =>
    match s, depth with
    | '"' :: _, _ | '\'' :: _, _ => (string? s).map fun (text, rest) => (.string text, rest)
    | '[' :: _, 0 | '{' :: _, 0 => none
    | '[' :: rest, depth + 1 =>
      (items? fuel depth rest).map fun (items, rest) => (.array items, rest)
    | '{' :: rest, depth + 1 =>
      (pairs? fuel depth ⟨.header, []⟩ rest).map fun (t, rest) =>
        (.table .inlined t.entries, rest)
    | _, _ => scalar? s

/-- Reads the items of an array and its end; a comma may follow the last item. -/
def items? : Nat → Nat → List Char → Option (List Value × List Char)
  | 0, _, _ => none
  | fuel + 1, depth, s => do
    match dropGap (s.length + 1) s with
    | ']' :: rest => some ([], rest)
    | s =>
      let (item, s) ← value? fuel depth s
      match dropGap (s.length + 1) s with
      | ',' :: rest =>
        let (items, rest) ← items? fuel depth rest
        some (item :: items, rest)
      | ']' :: rest => some ([item], rest)
      | _ => none

/-- Reads the pairs of an inline table onto `t`, and its end; a comma may follow the last
pair. -/
def pairs? : Nat → Nat → Table → List Char → Option (Table × List Char)
  | 0, _, _, _ => none
  | fuel + 1, depth, t, s => do
    match dropGap (s.length + 1) s with
    | '}' :: rest => some (t, rest)
    | s =>
      let (path, key, s) ← keyPath? (s.length + 1) s
      match s with
      | '=' :: s =>
        let (value, s) ← value? fuel depth (dropSpaces s)
        let t ← t.define? path key value
        match dropGap (s.length + 1) s with
        | ',' :: rest => pairs? fuel depth t rest
        | '}' :: rest => some (t, rest)
        | _ => none
      | _ => none

end

/-- The document so far: the table at its top, and the path of the last header. -/
structure State where
  top : Table
  header : List (List Char)

/-- Reads one line that is not empty, and its end. -/
def line? (state : State) (s : List Char) : Option (State × List Char) := do
  match s with
  | '[' :: '[' :: s =>
    let (path, key, s) ← keyPath? (s.length + 1) s
    match s with
    | ']' :: ']' :: s =>
      some (⟨← state.top.openElement? path key, path ++ [key]⟩, ← dropLineEnd? s)
    | _ => none
  | '[' :: s =>
    let (path, key, s) ← keyPath? (s.length + 1) s
    match s with
    | ']' :: s => some (⟨← state.top.openTable? path key, path ++ [key]⟩, ← dropLineEnd? s)
    | _ => none
  | s =>
    let (path, key, s) ← keyPath? (s.length + 1) s
    match s with
    | '=' :: s =>
      let s := dropSpaces s
      let (value, s) ← value? (s.length + 1) depthLimit s
      let top ← Table.modify? .implied (·.define? path key value) state.header state.top
      some ({ state with top }, ← dropLineEnd? s)
    | _ => none

/-- Reads the lines of a document.  The first argument bounds their number. -/
def lines? : Nat → State → List Char → Option Table
  | 0, _, _ => none
  | fuel + 1, state, s => do
    match dropGap (s.length + 1) s with
    | [] => some state.top
    | s =>
      let (state, s) ← line? state s
      lines? fuel state s

/-- Reads a document; a byte order mark at its start does not count. -/
def parse? (text : List Char) : Option Table :=
  let text := match text with
    | '\ufeff' :: rest => rest
    | _ => text
  lines? (text.length + 1) ⟨⟨.header, []⟩, []⟩ text

end SkillLint.Toml
