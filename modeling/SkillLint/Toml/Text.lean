/-!
# Texts in TOML

The lexical parts of TOML that spell texts: blanks and line breaks, comments, the four
kinds of strings, and keys.  A reader answers what it read and the rest of the document,
or `none` where the document is malformed.
-/

namespace SkillLint.Toml

/-- A space or a tab. -/
def isSpace (c : Char) : Bool := c == ' ' || c == '\t'

/-- A character that may stand in a comment or a literal string. -/
def isTextChar (c : Char) : Bool := c == '\t' || (0x20 ≤ c.toNat && c.toNat != 0x7F)

/-- The rest after spaces and tabs. -/
def dropSpaces (s : List Char) : List Char := s.dropWhile isSpace

/-- The rest after a line break. -/
def dropBreak? : List Char → Option (List Char)
  | '\n' :: rest => some rest
  | '\r' :: '\n' :: rest => some rest
  | _ => none

/-- The rest after a comment, if there is one. -/
def dropComment : List Char → List Char
  | '#' :: rest => rest.dropWhile isTextChar
  | s => s

/-- The rest after the end of a line, which may hold a comment. -/
def dropLineEnd? (s : List Char) : Option (List Char) :=
  match dropComment (dropSpaces s) with
  | [] => some []
  | s => dropBreak? s

/-- The rest after spaces, comments and line breaks.  The first argument bounds the number
of lines. -/
def dropGap : Nat → List Char → List Char
  | 0, s => s
  | fuel + 1, s =>
    let s := dropComment (dropSpaces s)
    match dropBreak? s with
    | some rest => dropGap fuel rest
    | none => s

/-! ## Strings -/

/-- The value of a hexadecimal digit. -/
def hexValue? (c : Char) : Option Nat :=
  if c.isDigit then some (c.toNat - '0'.toNat)
  else if 'a' ≤ c ∧ c ≤ 'f' then some (c.toNat - 'a'.toNat + 10)
  else if 'A' ≤ c ∧ c ≤ 'F' then some (c.toNat - 'A'.toNat + 10)
  else none

/-- The character that `n` hexadecimal digits name, and the rest. -/
def codePoint? (n : Nat) (s : List Char) : Option (Char × List Char) := do
  let digits := s.take n
  if digits.length < n then none
  let value ← digits.foldlM (fun v c => (hexValue? c).map (v * 16 + ·)) 0
  if (0xD800 ≤ value && value ≤ 0xDFFF) || 0x10FFFF < value then none
  some (Char.ofNat value, s.drop n)

/-- The character that an escape names, and the rest; the backslash is read already. -/
def escape? : List Char → Option (Char × List Char)
  | 'b' :: rest => some ('\x08', rest)
  | 't' :: rest => some ('\t', rest)
  | 'n' :: rest => some ('\n', rest)
  | 'f' :: rest => some ('\x0c', rest)
  | 'r' :: rest => some ('\r', rest)
  | 'e' :: rest => some ('\x1b', rest)
  | '"' :: rest => some ('"', rest)
  | '\\' :: rest => some ('\\', rest)
  | 'x' :: rest => codePoint? 2 rest
  | 'u' :: rest => codePoint? 4 rest
  | 'U' :: rest => codePoint? 8 rest
  | _ => none

/-- The rest after spaces, tabs and line breaks. -/
def dropBlanks : List Char → List Char
  | '\r' :: '\n' :: rest => dropBlanks rest
  | c :: rest => if isSpace c || c == '\n' then dropBlanks rest else c :: rest
  | [] => []

/-- The rest after a backslash at the end of a line: blanks and line breaks are passed
over. -/
def dropContinuation? (s : List Char) : Option (List Char) :=
  (dropBreak? (dropSpaces s)).map dropBlanks

/-- Reads a string on one line up to its quote.  Only a string in double quotes has
escapes. -/
def readString? (quote : Char) : Nat → List Char → Option (List Char × List Char)
  | 0, _ => none
  | _ + 1, [] => none
  | fuel + 1, c :: rest =>
    if c == quote then some ([], rest)
    else if c == '\\' && quote == '"' then do
      let (value, rest) ← escape? rest
      let (text, rest) ← readString? quote fuel rest
      some (value :: text, rest)
    else if isTextChar c then
      (readString? quote fuel rest).map fun (text, rest) => (c :: text, rest)
    else none

/-- Reads a string over several lines up to its three quotes.  One or two quotes directly
before these belong to the string, and line breaks are kept as they are written. -/
def readLongString? (quote : Char) : Nat → List Char → Option (List Char × List Char)
  | 0, _ => none
  | _ + 1, [] => none
  | fuel + 1, c :: rest =>
    if c == quote then
      let quotes := ((c :: rest).takeWhile (· == quote)).length
      let after := (c :: rest).drop quotes
      if quotes < 3 then
        (readLongString? quote fuel after).map fun (text, rest) =>
          (List.replicate quotes quote ++ text, rest)
      else if quotes ≤ 5 then some (List.replicate (quotes - 3) quote, after)
      else none
    else if c == '\\' && quote == '"' then
      match dropContinuation? rest with
      | some rest => readLongString? quote fuel rest
      | none => do
        let (value, rest) ← escape? rest
        let (text, rest) ← readLongString? quote fuel rest
        some (value :: text, rest)
    else
      if isTextChar c || (dropBreak? (c :: rest)).isSome then
        (readLongString? quote fuel rest).map fun (text, rest) => (c :: text, rest)
      else none

/-- Reads a string of any kind.  A line break directly after three quotes is not part of
the string. -/
def string? (s : List Char) : Option (List Char × List Char) :=
  match s with
  | '"' :: '"' :: '"' :: rest =>
    readLongString? '"' (rest.length + 1) ((dropBreak? rest).getD rest)
  | '\'' :: '\'' :: '\'' :: rest =>
    readLongString? '\'' (rest.length + 1) ((dropBreak? rest).getD rest)
  | '"' :: rest => readString? '"' (rest.length + 1) rest
  | '\'' :: rest => readString? '\'' (rest.length + 1) rest
  | _ => none

/-! ## Keys -/

/-- The characters of a key without quotes. -/
def isKeyChar (c : Char) : Bool := c.isAlphanum || c == '-' || c == '_'

/-- Reads one part of a key: bare, or a string on one line. -/
def keyPart? (s : List Char) : Option (List Char × List Char) :=
  match s with
  | '"' :: rest => readString? '"' (rest.length + 1) rest
  | '\'' :: rest => readString? '\'' (rest.length + 1) rest
  | s =>
    match s.span isKeyChar with
    | ([], _) => none
    | (part, rest) => some (part, rest)

/-- Reads the parts of a dotted key; the answer is the parts before the last one, the last
one and the rest.  The first argument bounds the number of parts. -/
def keyPath? : Nat → List Char → Option (List (List Char) × List Char × List Char)
  | 0, _ => none
  | fuel + 1, s => do
    let (part, rest) ← keyPart? (dropSpaces s)
    match dropSpaces rest with
    | '.' :: rest =>
      let (path, last, rest) ← keyPath? fuel rest
      some (part :: path, last, rest)
    | rest => some ([], part, rest)

end SkillLint.Toml
