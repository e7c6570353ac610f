import SkillLint.Yaml.Cursor
import SkillLint.Yaml.Token

/-!
# Directives, anchors and tags of YAML

Readers of the small notations that stand before content: directives at the start of a
document, names of anchors and aliases, and tags.  A tag is kept as bytes, since a
percent sign in it may spell any byte sequence with the shape of UTF-8.  Each reader
answers `none` where the stream is malformed.
-/

namespace SkillLint.Yaml

/-! ## Names and tags -/

/-- The indicators that may follow the name of an anchor directly. -/
def endsName (c : Char) : Bool :=
  isGap c || "?:,]\x7d%@\x60".toList.contains c

/-- Reads the name of an anchor or alias after its indicator. -/
def readName? (c : Cursor) : Option (List Char × Cursor) :=
  let (name, next) := (c.skip 1).takeWhile isWord
  if name.isEmpty || !next.peek?.all endsName then none else some (name, next)

/-- The characters of a tag.  A verbatim tag may hold flow indicators too. -/
def isTagChar (verbatim : Bool) (c : Char) : Bool :=
  isWord c || ";/?:@&=+$.%!~*'()".toList.contains c ||
    (verbatim && ",[]".toList.contains c)

/-- The number of bytes of a UTF-8 sequence, from its first byte. -/
def sequenceLength? (first : Nat) : Option Nat :=
  if first < 0x80 then some 1
  else if first / 0x20 = 6 then some 2
  else if first / 0x10 = 14 then some 3
  else if first / 0x08 = 30 then some 4
  else none

/-- A byte written as a percent sign and two hexadecimal digits. -/
def octet? (c : Cursor) : Option (Nat × Cursor) :=
  match c.rest with
  | '%' :: a :: b :: _ => do
    let high ← hexValue? a
    let low ← hexValue? b
    some (high * 16 + low, c.skip 3)
  | _ => none

/-- The continuation bytes of an escaped sequence. -/
def continuation? : Nat → Cursor → Option (List UInt8 × Cursor)
  | 0, c => some ([], c)
  | n + 1, c => do
    let (byte, c) ← octet? c
    if byte / 0x40 ≠ 2 then none
    let (rest, c) ← continuation? n c
    some (byte.toUInt8 :: rest, c)

/-- The bytes of an escaped sequence. -/
def escapedBytes? (c : Cursor) : Option (List UInt8 × Cursor) := do
  let (first, c) ← octet? c
  let length ← sequenceLength? first
  let (rest, c) ← continuation? (length - 1) c
  some (first.toUInt8 :: rest, c)

/-- Reads the characters of a tag; the first argument bounds their number. -/
def tagChars? (verbatim : Bool) : Nat → Cursor → Option (List UInt8 × Cursor)
  | 0, c => some ([], c)
  | fuel + 1, c =>
    match c.peek? with
    | none => some ([], c)
    | some ch =>
      if !isTagChar verbatim ch then some ([], c)
      else if ch == '%' then do
        let (bytes, next) ← escapedBytes? c
        let (rest, next) ← tagChars? verbatim fuel next
        some (bytes ++ rest, next)
      else do
        let (rest, next) ← tagChars? verbatim fuel (c.skip 1)
        some (ch.toNat.toUInt8 :: rest, next)

/-- Reads the characters of a tag that follow `head`, of which the first character is
not kept.  Head and characters may not both be empty.  An escaped zero byte ends the tag,
and nothing after it counts. -/
def readTagChars? (verbatim : Bool) (head : List Char) (c : Cursor) :
    Option (List UInt8 × Cursor) := do
  let (bytes, next) ← tagChars? verbatim c.rest.length c
  if head.isEmpty && next.index == c.index then none
  some (((head.drop 1).map (·.toNat.toUInt8) ++ bytes).takeWhile (· ≠ 0), next)

/-- Reads a handle: an exclamation mark, and maybe a name and a second one. -/
def readHandle? (c : Cursor) : Option (List Char × Cursor) :=
  if !c.looksAt '!' then none
  else
    let (name, next) := (c.skip 1).takeWhile isWord
    if next.looksAt '!' then some ('!' :: name ++ ['!'], next.skip 1)
    else some ('!' :: name, next)

/-- Reads a tag: verbatim between angle brackets, after a named handle, or after the
handle of one exclamation mark.  A lone exclamation mark has no handle and is its own
suffix. -/
def readTag? (flow : Bool) (c : Cursor) : Option (Token × Cursor) := do
  let (tag, next) ←
    if c.ahead? 1 == some '<' then do
      let (bytes, next) ← readTagChars? true [] (c.skip 2)
      if !next.looksAt '>' then none
      some (Token.tag [] bytes, next.skip 1)
    else do
      let (handle, next) ← readHandle? c
      if handle.length > 1 && handle.getLast? == some '!' then
        let (bytes, next) ← readTagChars? false [] next
        some (Token.tag handle bytes, next)
      else
        let (bytes, next) ← readTagChars? false handle next
        if bytes.isEmpty then some (Token.tag [] [33], next)
        else some (Token.tag ['!'] bytes, next)
  if next.gapAhead 0 || (flow && next.looksAt ',') then some (tag, next) else none

/-! ## Directives -/

/-- Reads a number of a version: one to nine digits. -/
def readVersionNumber? (c : Cursor) : Option (Nat × Cursor) :=
  let (digits, next) := c.takeWhile Char.isDigit
  if digits.isEmpty || digits.length > 9 then none
  else some (digits.foldl (fun n d => n * 10 + (d.toNat - '0'.toNat)) 0, next)

/-- Reads the two numbers of a version directive. -/
def readVersion? (c : Cursor) : Option (Token × Cursor) := do
  let (major, c) ← readVersionNumber? (c.dropWhile isSpace)
  if !c.looksAt '.' then none
  let (minor, c) ← readVersionNumber? (c.skip 1)
  some (.version major minor, c)

/-- Reads the handle and the bytes of a tag directive. -/
def readTagDirective? (c : Cursor) : Option (Token × Cursor) := do
  let (handle, c) ← readHandle? (c.dropWhile isSpace)
  if handle ≠ ['!'] && !(handle.length > 1 && handle.getLast? == some '!') then none
  if !c.peek?.any isSpace then none
  let (bytes, c) ← readTagChars? true [] (c.dropWhile isSpace)
  if !c.gapAhead 0 then none
  some (.tagHandle handle bytes, c)

/-- Reads a directive from its percent sign to the end of its line. -/
def readDirective? (c : Cursor) : Option (Token × Cursor) := do
  let (name, c) := (c.skip 1).takeWhile isWord
  if name.isEmpty || !c.gapAhead 0 then none
  let (token, c) ←
    if name = "YAML".toList then readVersion? c
    else if name = "TAG".toList then readTagDirective? c
    else none
  let c := c.dropWhile isSpace
  let c := if c.looksAt '#' then c.dropWhile (!isBreak ·) else c
  if !c.peek?.all isBreak then none
  match c.lineBreak? with
  | some (_, next) => some (token, next)
  | none => some (token, c)

end SkillLint.Yaml
