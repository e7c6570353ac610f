import SkillLint.FileTree.Basic

/-!
# Building a tree

A tree grows by files that are written and directories that are made, with the
directories above them, and shrinks by entries that are removed.  Here the names of a path
are taken as they are, from the top for an absolute path and from the working directory
otherwise; empty names and single dots count for nothing.
-/

namespace SkillLint.FileTree

/-- Changes the entry with a name, or adds one at the end; `change` is told what is
there. -/
def changeEntry (name : String) (change : Option Node → Node) :
    List (String × Node) → List (String × Node)
  | [] => [(name, change none)]
  | (n, node) :: rest =>
    if n = name then (n, change (some node)) :: rest else (n, node) :: changeEntry name change rest

namespace Node

/-- The entries of a directory.  A file has none. -/
def entries : Node → List (String × Node)
  | file _ => []
  | dir entries => entries

/-- The node with a change at the end of a path.  Missing directories are made, and a file
in the way becomes one. -/
def changeAt (change : Option Node → Node) : List String → Option Node → Node
  | [], node => change node
  | name :: rest, node =>
    .dir (changeEntry name (changeAt change rest) ((node.map entries).getD []))

/-- The node without the entry at the end of a path. -/
def removeAt : List String → Node → Node
  | [name], dir entries => dir (entries.filter (·.1 ≠ name))
  | name :: rest, dir entries =>
    dir (entries.map fun (n, node) => if n = name then (n, removeAt rest node) else (n, node))
  | _, node => node

end Node

/-- A tree without files, and a working directory in it. -/
def empty (workingDir : List String) : FileTree where
  top := Node.changeAt (fun _ => .dir []) workingDir none
  workingDir := workingDir

/-- The names from the top to the end of a path. -/
def names (tree : FileTree) (p : Path) : List String :=
  let names := p.segments.filter fun name => name ≠ "" ∧ name ≠ "."
  if p.isAbsolute then names else tree.workingDir ++ names

/-- The tree with a change at the end of a path. -/
def change (tree : FileTree) (p : Path) (f : Option Node → Node) : FileTree :=
  { tree with top := Node.changeAt f (tree.names p) (some tree.top) }

/-- The tree with a file written. -/
def writeFile (tree : FileTree) (p : Path) (content : ByteArray) : FileTree :=
  tree.change p fun _ => .file content

/-- The tree with a directory made; one that is there keeps its entries. -/
def makeDir (tree : FileTree) (p : Path) : FileTree :=
  tree.change p fun node => .dir ((node.map Node.entries).getD [])

/-- The tree without the entry at the end of a path. -/
def remove (tree : FileTree) (p : Path) : FileTree :=
  { tree with top := Node.removeAt (tree.names p) tree.top }

end SkillLint.FileTree
