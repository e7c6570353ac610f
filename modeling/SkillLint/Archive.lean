import SkillLint.FileTree.Build

/-!
# Archives

A project comes to the program as a **tape archive**, so that everything behind the
reading of standard input is a function of its bytes.  An archive is a sequence of blocks
of `blockSize` bytes: a header block with the name, the size and the kind of an entry, and
after it the blocks of its content, the last one filled up.  A block without a name ends
the archive.

`Archive.entries?` reads the entries, of which files and directories are kept, and
`Archive.tree?` puts them below a working directory.  An archive that breaks off, and a
name or a size that cannot be read, give nothing.
-/

namespace SkillLint.Archive

/-- The number of bytes of a block. -/
def blockSize : Nat := 512

/-- A file with its content, or a directory. -/
structure Entry where
  path : Path
  /-- The content, if the entry is a file. -/
  content : Option ByteArray

/-- The text in a field of a header, up to the first null byte. -/
def text? (header : ByteArray) (start size : Nat) : Option String :=
  String.fromUTF8? ⟨((header.extract start (start + size)).toList.takeWhile (· ≠ 0)).toArray⟩

/-- The number that the digits write, in base eight. -/
def octal? (digits : List Char) : Option Nat :=
  digits.foldlM (fun n c =>
    if '0' ≤ c ∧ c ≤ '7' then some (8 * n + (c.toNat - '0'.toNat)) else none) 0

/-- The number in a field of a header. -/
def number? (header : ByteArray) (start size : Nat) : Option Nat := do
  let text ← text? header start size
  octal? (text.toList.filter (· ≠ ' '))

/-- The path of an entry: its name, below the directory that the header may give. -/
def path? (header : ByteArray) : Option Path := do
  let name ← text? header 0 100
  let dir ← text? header 345 155
  return if dir = "" then ⟨name⟩ else Path.join ⟨dir⟩ name

/-- The number of blocks that so many bytes fill. -/
def blocks (size : Nat) : Nat := (size + blockSize - 1) / blockSize

/-- The entries from a position on.  The first number bounds how many there are. -/
def entriesFrom? (bytes : ByteArray) : Nat → Nat → Option (List Entry)
  | 0, _ => none
  | fuel + 1, start => do
    let header := bytes.extract start (start + blockSize)
    if header.isEmpty then return []
    if header.size < blockSize then none
    let path ← path? header
    if path.text = "" then return []
    let size ← number? header 124 12
    let content := bytes.extract (start + blockSize) (start + blockSize + size)
    if content.size < size then none
    let rest ← entriesFrom? bytes fuel (start + blockSize * (1 + blocks size))
    match ← text? header 156 1 with
    | "" | "0" => return ⟨path, some content⟩ :: rest
    | "5" => return ⟨path, none⟩ :: rest
    | _ => return rest

/-- The entries of an archive. -/
def entries? (bytes : ByteArray) : Option (List Entry) :=
  entriesFrom? bytes (bytes.size / blockSize + 2) 0

/-- The tree with an entry. -/
def Entry.addTo (tree : FileTree) (e : Entry) : FileTree :=
  match e.content with
  | some content => tree.writeFile e.path content
  | none => tree.makeDir e.path

/-- The tree of an archive. -/
def tree? (workingDir : List String) (bytes : ByteArray) : Option FileTree :=
  (entries? bytes).map (·.foldl Entry.addTo (.empty workingDir))

end SkillLint.Archive
