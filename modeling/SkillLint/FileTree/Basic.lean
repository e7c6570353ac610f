import SkillLint.Path

/-!
# File trees

The rules read files but never write them, so the world that they see is a value: a
`FileTree` is the tree of directories and files below its top, together with the
names that lead from the top to the working directory.  A directory lists its
entries in an order of its own, which stands for whatever order a directory happens
to be listed in; no answer of this library depends on it.

**Finding a path** (`place`) goes segment by segment, from the top for an absolute
path and from the working directory otherwise.  Every segment, also a dot, two dots
and the empty segment after a final slash, needs a directory to start from, so
`note.md/` and `note.md/..` lead nowhere when `note.md` is a file.  The empty path
leads nowhere.

Reading can fail in the four ways of `ReadError`.
-/

namespace SkillLint

/-- A file with its bytes, or a directory with its named entries. -/
inductive FileTree.Node where
  | file (content : ByteArray)
  | dir (entries : List (String × Node))

namespace FileTree.Node

/-- The node is a directory. -/
def isDir : Node → Bool
  | file _ => false
  | dir _ => true

/-- The node is a file. -/
def isFile : Node → Bool
  | file _ => true
  | dir _ => false

end FileTree.Node

/-- Why a path could not be read. -/
inductive ReadError where
  /-- No entry has the name. -/
  | notFound
  /-- A step was taken from a file. -/
  | notADirectory
  /-- The path is a directory, and a text was asked for. -/
  | isADirectory
  /-- The bytes of the file are not the UTF-8 form of a text. -/
  | invalidText
  deriving Repr, DecidableEq

/-- The wording of the failure. -/
def ReadError.message : ReadError → String
  | .notFound => "No such file or directory (os error 2)"
  | .notADirectory => "Not a directory (os error 20)"
  | .isADirectory => "Is a directory (os error 21)"
  | .invalidText => "stream did not contain valid UTF-8"

/-- A tree of files and the names from its top to the working directory. -/
structure FileTree where
  top : FileTree.Node
  workingDir : List String

namespace FileTree

/-- A node with the directories above it, the nearest first. -/
structure Place where
  node : Node
  above : List Node

namespace Place

/-- One segment further: up for two dots, nowhere for a dot or an empty segment, down
into the entry otherwise.  The top is its own parent. -/
def step (here : Place) (segment : String) : Except ReadError Place :=
  match here.node with
  | .file _ => .error .notADirectory
  | .dir entries =>
    if segment = "" ∨ segment = "." then .ok here
    else if segment = ".." then
      match here.above with
      | [] => .ok here
      | parent :: above => .ok ⟨parent, above⟩
    else
      match entries.lookup segment with
      | none => .error .notFound
      | some node => .ok ⟨node, here.node :: here.above⟩

end Place

/-- The top of the tree. -/
def topPlace (tree : FileTree) : Place := ⟨tree.top, []⟩

/-- The place that a path leads to. -/
def place (tree : FileTree) (p : Path) : Except ReadError Place :=
  if p.text = "" then .error .notFound
  else if p.isAbsolute then p.segments.foldlM Place.step tree.topPlace
  else (tree.workingDir ++ p.segments).foldlM Place.step tree.topPlace

/-- The node that a path leads to. -/
def find (tree : FileTree) (p : Path) : Except ReadError Node :=
  (tree.place p).map Place.node

/-- The path leads somewhere. -/
def pathExists (tree : FileTree) (p : Path) : Bool := (tree.find p).isOk

/-- The path leads to a directory. -/
def isDir (tree : FileTree) (p : Path) : Bool :=
  match tree.find p with
  | .ok node => node.isDir
  | .error _ => false

/-- The path leads to a file. -/
def isFile (tree : FileTree) (p : Path) : Bool :=
  match tree.find p with
  | .ok node => node.isFile
  | .error _ => false

/-- The text of the file that the path leads to. -/
def readText (tree : FileTree) (p : Path) : Except ReadError String := do
  match ← tree.find p with
  | .dir _ => .error .isADirectory
  | .file content =>
    match String.fromUTF8? content with
    | some text => .ok text
    | none => .error .invalidText

/-- The paths of the entries of a directory, in the order of its listing. -/
def list (tree : FileTree) (dir : Path) : Except ReadError (List Path) := do
  match ← tree.find dir with
  | .file _ => .error .notADirectory
  | .dir entries => .ok (entries.map fun (name, _) => dir.join name)

end FileTree

end SkillLint
