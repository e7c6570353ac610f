import SkillLint.Yaml.Property
import SkillLint.Yaml.ScalarText

/-!
# From a YAML stream to its tokens

The reader of tokens keeps track of the **layout** of the stream.  In a block the
column of a line decides which blocks are open: `roll` opens a block where the column
grows and `unroll?` closes blocks where it shrinks.  Inside a flow collection columns
mean nothing.

A key may be recognised only at the colon after it.  So the layout remembers, for the
block and for every open flow collection, the last place where a key may have started
(`PendingKey`); when the colon comes, the tokens that announce the key are put in at
that place.  A pending key is given up when its line ends or after 1024 bytes, and that
is an error if nothing else than a key could have stood there.

`tokens?` reads all tokens of a text, or `none` if the text is malformed.
-/

namespace SkillLint.Yaml

/-- A place where a key may have started. -/
structure PendingKey where
  /-- The number of tokens before it. -/
  position : Nat
  /-- Nothing but a key can stand there. -/
  required : Bool
  index : Nat
  line : Nat
  column : Nat

/-- The stream ahead, the tokens so far and what is open. -/
structure Layout where
  cursor : Cursor
  /-- The tokens so far, the last one first. -/
  tokens : List Token
  /-- The number of tokens so far. -/
  count : Nat
  /-- The column of the innermost open block, `-1` before the first. -/
  indent : Int
  /-- The columns of the blocks around it, from inside out. -/
  outerIndents : List Int
  /-- A key may start here. -/
  keyAllowed : Bool
  /-- The pending key of the innermost flow collection, or of the blocks. -/
  pending : Option PendingKey
  /-- The pending keys around it, one for every open flow collection. -/
  outerPending : List (Option PendingKey)

namespace Layout

/-- Before the first token. -/
def start (text : List Char) : Layout where
  cursor := .start text
  tokens := []
  count := 0
  indent := -1
  outerIndents := []
  keyAllowed := true
  pending := none
  outerPending := []

/-- A flow collection is open. -/
def inFlow (s : Layout) : Bool := !s.outerPending.isEmpty

/-- One more token at the end. -/
def emit (s : Layout) (t : Token) : Layout :=
  { s with tokens := t :: s.tokens, count := s.count + 1 }

/-- One more token after the first `position` tokens. -/
def insertAt (s : Layout) (position : Nat) (t : Token) : Layout :=
  let later := s.count - position
  { s with tokens := s.tokens.take later ++ t :: s.tokens.drop later, count := s.count + 1 }

/-- One more token, and the cursor after it. -/
def advance (s : Layout) (t : Token) (next : Cursor) : Layout :=
  { s.emit t with cursor := next }

/-! ## Pending keys -/

/-- A pending key that the cursor has left too far behind is given up. -/
def expire? (cursor : Cursor) (key : Option PendingKey) : Option (Option PendingKey) :=
  match key with
  | none => some none
  | some k =>
    if k.line < cursor.line || k.index + 1024 < cursor.index then
      (if k.required then none else some none)
    else some (some k)

/-- Gives up all pending keys that are too far behind. -/
def expireKeys? (s : Layout) : Option Layout := do
  let pending ← expire? s.cursor s.pending
  let outerPending ← s.outerPending.mapM (expire? s.cursor)
  some { s with pending, outerPending }

/-- Gives up the innermost pending key. -/
def dropKey? (s : Layout) : Option Layout :=
  if s.pending.any (·.required) then none else some { s with pending := none }

/-- Remembers that a key may start at the cursor. -/
def saveKey? (s : Layout) : Option Layout :=
  if s.keyAllowed then do
    let s ← s.dropKey?
    let c := s.cursor
    some { s with pending := some {
      position := s.count
      required := !s.inFlow && s.indent == (c.column : Int)
      index := c.index
      line := c.line
      column := c.column } }
  else some s

/-! ## Blocks -/

/-- Opens a block at the column, if it lies right of the innermost one.  Its start is
put after the first `position` tokens. -/
def roll (s : Layout) (column position : Nat) (start : Token) : Layout :=
  if !s.inFlow && s.indent < (column : Int) then
    { s.insertAt position start with indent := column, outerIndents := s.indent :: s.outerIndents }
  else s

/-- Closes blocks right of the column; the argument list holds the columns of the
blocks around the innermost one. -/
def unrollOver (column : Int) : List Int → Layout → Layout
  | [], s => s
  | outer :: rest, s =>
    if s.indent > column then
      unrollOver column rest { s.emit .blockEnd with indent := outer, outerIndents := rest }
    else s

/-- Closes the blocks right of the column. -/
def unroll (s : Layout) (column : Int) : Layout :=
  if s.inFlow then s else unrollOver column s.outerIndents s

/-! ## Tokens -/

/-- Skips spaces, comments, line breaks, and byte order marks at the start of a line.  Tabs
count as spaces only where no key may start, and in a block a new line allows a key again.
The first argument bounds the number of lines. -/
def skipGap (flow : Bool) : Nat → Bool → Cursor → Bool × Cursor
  | 0, allowed, c => (allowed, c)
  | fuel + 1, allowed, c =>
    let c := c.skipMark.dropWhile fun ch => ch == ' ' || ((flow || !allowed) && ch == '\t')
    let c := if c.looksAt '#' then c.dropWhile (!isBreak ·) else c
    match c.lineBreak? with
    | some (_, next) => skipGap flow fuel (allowed || !flow) next
    | none => (allowed, c)

/-- A directive or a mark between documents: everything open is closed. -/
def betweenDocuments? (s : Layout) (t : Token) (next : Cursor) : Option Layout := do
  let s ← (s.unroll (-1)).dropKey?
  some { s.advance t next with keyAllowed := false }

/-- The start of a flow collection. -/
def openFlow? (s : Layout) (t : Token) : Option Layout := do
  let s ← s.saveKey?
  some { s.advance t (s.cursor.skip 1) with
    outerPending := s.pending :: s.outerPending, pending := none, keyAllowed := true }

/-- The end of a flow collection. -/
def closeFlow? (s : Layout) (t : Token) : Option Layout := do
  let s ← s.dropKey?
  let s := { s.advance t (s.cursor.skip 1) with keyAllowed := false }
  match s.outerPending with
  | [] => some s
  | key :: outer => some { s with pending := key, outerPending := outer }

/-- The comma in a flow collection. -/
def flowEntry? (s : Layout) : Option Layout := do
  let s ← s.dropKey?
  some { s.advance .flowEntry (s.cursor.skip 1) with keyAllowed := true }

/-- The hyphen of an item.  In a block it needs a place where a key may start. -/
def blockEntry? (s : Layout) : Option Layout := do
  if !s.inFlow && !s.keyAllowed then none
  let s := s.roll s.cursor.column s.count .blockSequenceStart
  let s ← s.dropKey?
  some { s.advance .blockEntry (s.cursor.skip 1) with keyAllowed := true }

/-- The question mark before a key. -/
def explicitKey? (s : Layout) : Option Layout := do
  if !s.inFlow && !s.keyAllowed then none
  let s := s.roll s.cursor.column s.count .blockMappingStart
  let s ← s.dropKey?
  some { s.advance .key (s.cursor.skip 1) with keyAllowed := !s.inFlow }

/-- The colon before a value.  After a pending key it announces the key; otherwise, in a
block, it needs a place where a key may start. -/
def value? (s : Layout) : Option Layout :=
  match s.pending with
  | some key =>
    let s := (s.insertAt key.position .key).roll key.column key.position .blockMappingStart
    some { s.advance .value (s.cursor.skip 1) with pending := none, keyAllowed := false }
  | none =>
    if !s.inFlow && !s.keyAllowed then none
    else
      let s := s.roll s.cursor.column s.count .blockMappingStart
      some { s.advance .value (s.cursor.skip 1) with keyAllowed := !s.inFlow }

/-- Content that may be a key: `t` and the cursor after it. -/
def content? (s : Layout) (read : Option (Token × Cursor)) : Option Layout := do
  let s ← s.saveKey?
  let (t, next) ← read
  some { s.advance t next with keyAllowed := false }

/-- A scalar without quotes.  If line breaks follow it, a key may start after them. -/
def plain? (s : Layout) : Option Layout := do
  let s ← s.saveKey?
  let (text, broken, next) ← readPlain? s.inFlow (s.indent + 1) s.cursor
  some { s.advance (.scalar true text) next with keyAllowed := broken }

/-- A block scalar, which is never a key. -/
def block? (s : Layout) (literal : Bool) : Option Layout := do
  let s ← s.dropKey?
  let (text, next) ← readBlock? literal s.indent s.cursor
  some { s.advance (.scalar false text) next with keyAllowed := true }

/-- The characters that cannot start a scalar without quotes. -/
def isIndicator (c : Char) : Bool := "-?:,[]\x7b\x7d#&*!|>'\"%@\x60".toList.contains c

/-- Reads the token that starts at the cursor with the character `ch`. -/
def token? (s : Layout) (ch : Char) : Option Layout :=
  let c := s.cursor
  let flow := s.inFlow
  let quoted (quote : Char) : Option (Token × Cursor) :=
    (readQuoted? quote c).map fun (text, next) => (.scalar false text, next)
  if c.column == 0 && ch == '%' then do
    let (t, next) ← readDirective? c
    s.betweenDocuments? t next
  else if c.atDocumentMark then
    s.betweenDocuments? (if ch == '-' then .documentStart else .documentEnd) (c.skip 3)
  else if ch == '[' then s.openFlow? .flowSequenceStart
  else if ch == '{' then s.openFlow? .flowMappingStart
  else if ch == ']' then s.closeFlow? .flowSequenceEnd
  else if ch == '}' then s.closeFlow? .flowMappingEnd
  else if ch == ',' then s.flowEntry?
  else if ch == '-' && c.gapAhead 1 then s.blockEntry?
  else if ch == '?' && (flow || c.gapAhead 1) then s.explicitKey?
  else if ch == ':' && (flow || c.gapAhead 1) then s.value?
  else if ch == '*' then s.content? ((readName? c).map fun (name, next) => (.aliasOf name, next))
  else if ch == '&' then s.content? ((readName? c).map fun (name, next) => (.anchor name, next))
  else if ch == '!' then s.content? (readTag? flow c)
  else if ch == '|' && !flow then s.block? true
  else if ch == '>' && !flow then s.block? false
  else if ch == '\'' then s.content? (quoted '\'')
  else if ch == '"' then s.content? (quoted '"')
  else if !(isGap ch || isIndicator ch) || (ch == '-' && !(c.ahead? 1).any isSpace) ||
      (!flow && (ch == '?' || ch == ':') && !c.gapAhead 1) then
    s.plain?
  else none

/-- Reads up to the next token: gaps are skipped, pending keys given up and blocks
closed. -/
def approach? (s : Layout) : Option Layout := do
  let (allowed, cursor) := skipGap s.inFlow (s.cursor.rest.length + 1) s.keyAllowed s.cursor
  let s ← { s with keyAllowed := allowed, cursor }.expireKeys?
  some (s.unroll cursor.column)

/-- Reads all tokens.  Each takes at least one character, which bounds their number. -/
def run? : Nat → Layout → Option Layout
  | 0, s => some s
  | fuel + 1, s => do
    let s ← s.approach?
    match s.cursor.peek? with
    | none => (s.unroll (-1)).dropKey?
    | some ch => run? fuel (← s.token? ch)

end Layout

/-- The tokens of a text, all of whose characters have to be printable. -/
def tokens? (text : List Char) : Option (List Token) :=
  if text.all isPrintable then
    ((Layout.start text).run? (text.length + 1)).map (·.tokens.reverse)
  else none

end SkillLint.Yaml
