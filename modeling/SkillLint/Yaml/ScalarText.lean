import SkillLint.Yaml.Cursor

/-!
# The text of YAML scalars

A scalar that goes over several lines is read with its line breaks **folded**: a single
break reads as a space, and of several breaks the first is dropped.  A `Gap` collects
the spaces and breaks between two words of such a scalar, and `Gap.text` is what they
read as.

The three readers answer the text of a scalar and the cursor after it, or `none` where
the stream is malformed: `readPlain?` for a scalar without quotes, `readQuoted?` for
one in single or double quotes, and `readBlock?` for a block of lines after an
indicator.
-/

namespace SkillLint.Yaml

/-! ## Gaps between words -/

/-- The spaces and line breaks between two words.  After the first break, spaces are
indentation and not kept. -/
structure Gap where
  spaces : List Char
  /-- A break has been passed. -/
  broken : Bool
  first : List Char
  more : List Char
  deriving Repr, DecidableEq

namespace Gap

/-- Nothing between two words. -/
def none : Gap := ⟨[], false, [], []⟩

/-- A line break that is not part of the text. -/
def escapedBreak : Gap := ⟨[], true, [], []⟩

/-- What folded line breaks read as. -/
def fold (first more : List Char) : List Char :=
  if first.head? = some '\n' then (if more.isEmpty then [' '] else more) else first ++ more

/-- What the gap reads as. -/
def text (g : Gap) : List Char := if g.broken then fold g.first g.more else g.spaces

/-- The gap with one more space or tab. -/
def addSpace (g : Gap) (c : Char) : Gap :=
  if g.broken then g else { g with spaces := g.spaces ++ [c] }

/-- The gap with one more break. -/
def addBreak (g : Gap) (br : List Char) : Gap :=
  if g.broken then { g with more := g.more ++ br } else ⟨[], true, br, []⟩

/-- Reads spaces, tabs and breaks onto a gap.  With a `margin`, a tab left of it on a
later line is an error.  The first argument bounds the number of characters. -/
def read (margin : Int) : Nat → Gap → Cursor → Option (Gap × Cursor)
  | 0, g, c => some (g, c)
  | fuel + 1, g, c =>
    match c.peek? with
    | Option.none => some (g, c)
    | some ch =>
      if isSpace ch then
        if g.broken && ch == '\t' && decide ((c.column : Int) < margin) then Option.none
        else read margin fuel (g.addSpace ch) (c.skip 1)
      else
        match c.lineBreak? with
        | some (br, next) => read margin fuel (g.addBreak br) next
        | Option.none => some (g, c)

end Gap

/-! ## Scalars without quotes -/

/-- The characters that end a scalar without quotes inside a flow collection. -/
def isFlowIndicator (c : Char) : Bool :=
  c == ',' || c == '[' || c == ']' || c == '{' || c == '}'

/-- A word of a scalar without quotes: up to a gap, to a colon before a gap, and in a
flow collection to a flow indicator.  There a colon directly before a flow indicator
or a question mark is an error. -/
def plainWord? (flow : Bool) : List Char → Option (List Char)
  | [] => some []
  | c :: rest =>
    if isGap c then some []
    else if c == ':' then
      if flow && rest.head?.any (fun d => isFlowIndicator d || d == '?') then none
      else if rest.head?.all isGap then some []
      else (plainWord? flow rest).map (c :: ·)
    else if flow && isFlowIndicator c then some []
    else (plainWord? flow rest).map (c :: ·)

/-- Reads the words of a scalar without quotes, each joined to the text by the gap
before it.  The answer tells also whether line breaks follow the last word. -/
def plainWords? (flow : Bool) (margin : Int) :
    Nat → List Char → Gap → Cursor → Option (List Char × Bool × Cursor)
  | 0, text, gap, c => some (text, gap.broken, c)
  | fuel + 1, text, gap, c =>
    if c.atDocumentMark || c.looksAt '#' then some (text, gap.broken, c)
    else
      match plainWord? flow c.rest with
      | none => none
      | some [] => some (text, gap.broken, c)
      | some word =>
        let text := text ++ gap.text ++ word
        let c := c.skip word.length
        if !c.peek?.any isGap then some (text, false, c)
        else
          match Gap.read margin c.rest.length Gap.none c with
          | none => none
          | some (gap, next) =>
            if !flow && decide ((next.column : Int) < margin) then some (text, gap.broken, next)
            else plainWords? flow margin fuel text gap next

/-- Reads a scalar without quotes.  In a block its later lines stand right of the
block, at `margin` or beyond. -/
def readPlain? (flow : Bool) (margin : Int) (c : Cursor) : Option (List Char × Bool × Cursor) :=
  plainWords? flow margin (c.rest.length + 1) [] Gap.none c

/-! ## Quoted scalars -/

/-- The number that hexadecimal digits spell. -/
def hexNumber? (digits : List Char) : Option Nat :=
  digits.foldlM (fun n c => (hexValue? c).map (n * 16 + ·)) 0

/-- The character that `n` hexadecimal digits name, and the cursor after them. -/
def codePoint? (n : Nat) (c : Cursor) : Option (Char × Cursor) := do
  let digits := c.rest.take n
  if digits.length < n then none
  let value ← hexNumber? digits
  if (0xD800 ≤ value && value ≤ 0xDFFF) || 0x10FFFF < value then none
  some (Char.ofNat value, c.skip n)

/-- The character that an escape names, from the character after the backslash, and
the cursor after the escape. -/
def escape? (e : Char) (c : Cursor) : Option (Char × Cursor) :=
  match e with
  | '0' => some ('\x00', c)
  | 'a' => some ('\x07', c)
  | 'b' => some ('\x08', c)
  | 't' | '\t' => some ('\t', c)
  | 'n' => some ('\n', c)
  | 'v' => some ('\x0b', c)
  | 'f' => some ('\x0c', c)
  | 'r' => some ('\r', c)
  | 'e' => some ('\x1b', c)
  | ' ' | '"' | '/' | '\\' => some (e, c)
  | 'N' => some ('\u0085', c)
  | '_' => some ('\u00a0', c)
  | 'L' => some ('\u2028', c)
  | 'P' => some ('\u2029', c)
  | 'x' => codePoint? 2 c
  | 'u' => codePoint? 4 c
  | 'U' => codePoint? 8 c
  | _ => none

/-- A word of a quoted scalar: up to a gap, to the closing quote or through an escaped
line break, of which the answer tells. -/
def quotedWord? (quote : Char) : Nat → Cursor → Option (List Char × Bool × Cursor)
  | 0, c => some ([], false, c)
  | fuel + 1, c =>
    match c.peek? with
    | none => some ([], false, c)
    | some ch =>
      if isGap ch then some ([], false, c)
      else if ch == quote then
        if quote == '\'' && c.ahead? 1 == some '\'' then
          (quotedWord? quote fuel (c.skip 2)).map fun (word, r) => ('\'' :: word, r)
        else some ([], false, c)
      else if quote == '"' && ch == '\\' then
        match (c.skip 1).lineBreak? with
        | some (_, next) => some ([], true, next)
        | none => do
          let e ← c.ahead? 1
          let (value, next) ← escape? e (c.skip 2)
          let (word, r) ← quotedWord? quote fuel next
          some (value :: word, r)
      else (quotedWord? quote fuel (c.skip 1)).map fun (word, r) => (ch :: word, r)

/-- Reads the words of a quoted scalar up to the closing quote.  A document mark at the
start of a line is an error, and so is the end of the stream. -/
def quotedWords? (quote : Char) : Nat → List Char → Cursor → Option (List Char × Cursor)
  | 0, _, _ => none
  | fuel + 1, text, c =>
    if c.atDocumentMark || c.rest.isEmpty then none
    else
      match quotedWord? quote c.rest.length c with
      | none => none
      | some (word, escaped, c) =>
        if c.looksAt quote then some (text ++ word, c.skip 1)
        else
          let gap := if escaped then Gap.escapedBreak else Gap.none
          match Gap.read 0 c.rest.length gap c with
          | none => none
          | some (gap, c) => quotedWords? quote fuel (text ++ word ++ gap.text) c

/-- Reads a quoted scalar from its opening quote. -/
def readQuoted? (quote : Char) (c : Cursor) : Option (List Char × Cursor) :=
  quotedWords? quote (c.rest.length + 1) [] (c.skip 1)

/-! ## Block scalars -/

/-- What becomes of the line breaks at the end of a block scalar. -/
inductive Chomping where
  | strip
  | clip
  | keep
  deriving Repr, DecidableEq

/-- The chomping that a sign asks for. -/
def Chomping.ofSign? : Char → Option Chomping
  | '+' => some .keep
  | '-' => some .strip
  | _ => none

/-- The signs after the indicator of a block scalar: chomping and indentation, in
either order.  An indentation of zero is an error, and no indentation is `0`. -/
def blockHeader? (c : Cursor) : Option (Chomping × Nat × Cursor) :=
  let increment? (c : Cursor) : Option (Nat × Cursor) :=
    match c.peek? with
    | some d =>
      if d == '0' then none
      else if d.isDigit then some (d.toNat - '0'.toNat, c.skip 1)
      else some (0, c)
    | none => some (0, c)
  match c.peek?.bind Chomping.ofSign? with
  | some chomping => (increment? (c.skip 1)).map fun (n, next) => (chomping, n, next)
  | none => do
    let (n, next) ← increment? c
    if n = 0 then some (.clip, 0, next)
    else
      match next.peek?.bind Chomping.ofSign? with
      | some chomping => some (chomping, n, next.skip 1)
      | none => some (.clip, n, next)

/-- Reads the indentation of lines and the breaks of empty lines.  An `indent` of zero
is not known yet.  The answer tells the deepest indentation that was seen. -/
def blockBreaks? (indent : Nat) :
    Nat → Nat → List Char → Cursor → Option (Nat × List Char × Cursor)
  | 0, deepest, breaks, c => some (deepest, breaks, c)
  | fuel + 1, deepest, breaks, c =>
    let spaces := (c.rest.takeWhile (· == ' ')).length
    let c := c.skip (if indent = 0 then spaces else min spaces (indent - c.column))
    let deepest := max deepest c.column
    if (indent = 0 || c.column < indent) && c.looksAt '\t' then none
    else
      match c.lineBreak? with
      | none => some (deepest, breaks, c)
      | some (br, next) => blockBreaks? indent fuel deepest (breaks ++ br) next

/-- Reads the lines of a block scalar.  `last` is the break after the line before,
`breaks` are those of the empty lines after it, and `spaced` tells whether that line
started with a space. -/
def blockLines? (literal : Bool) (indent : Nat) :
    Nat → List Char → List Char → List Char → Bool → Cursor →
      Option (List Char × List Char × List Char × Cursor)
  | 0, text, last, breaks, _, c => some (text, last, breaks, c)
  | fuel + 1, text, last, breaks, spaced, c =>
    if c.column ≠ indent || c.rest.isEmpty then some (text, last, breaks, c)
    else
      let startsSpaced := c.peek?.any isSpace
      let joint :=
        if !literal && last.head? == some '\n' && !spaced && !startsSpaced then
          (if breaks.isEmpty then [' '] else breaks)
        else last ++ breaks
      let (line, c) := c.takeWhile (!isBreak ·)
      let (last, c) := (c.lineBreak?).getD ([], c)
      match blockBreaks? indent (c.rest.length + 1) 0 [] c with
      | none => none
      | some (_, breaks, c) =>
        blockLines? literal indent fuel (text ++ joint ++ line) last breaks startsSpaced c

/-- Reads a block scalar from its indicator.  `parent` is the indentation of the block
around it. -/
def readBlock? (literal : Bool) (parent : Int) (c : Cursor) : Option (List Char × Cursor) := do
  let (chomping, increment, c) ← blockHeader? (c.skip 1)
  let c := c.dropWhile isSpace
  let c := if c.looksAt '#' then c.dropWhile (!isBreak ·) else c
  if !c.peek?.all isBreak then none
  let c := match c.lineBreak? with
    | some (_, next) => next
    | none => c
  let given := if increment = 0 then 0 else (max parent 0).toNat + increment
  let (deepest, breaks, c) ← blockBreaks? given (c.rest.length + 1) 0 [] c
  let indent := if given = 0 then max (max deepest (parent + 1).toNat) 1 else given
  let (text, last, breaks, c) ←
    blockLines? literal indent (c.rest.length + 1) [] [] breaks false c
  let text := if chomping = .strip then text else text ++ last
  let text := if chomping = .keep then text ++ breaks else text
  some (text, c)

end SkillLint.Yaml
