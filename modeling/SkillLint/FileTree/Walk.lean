import SkillLint.FileTree.Basic

/-!
# Walking a tree

`FileTree.walk` lists a path and everything below it, each with the path that leads
there: the path walked from, extended by one name for every level.  A path that leads
nowhere has an empty walk.
-/

namespace SkillLint.FileTree

/-- Names join a path of the walk by a slash; the order is that of the listings. -/
def Node.walkFrom (p : Path) : Node → List (Path × Node)
  | .file content => [(p, .file content)]
  | .dir entries => (p, .dir entries) :: walkEntries entries
where
  /-- The walks of the entries of the directory at `p`, one after another. -/
  walkEntries : List (String × Node) → List (Path × Node)
  | [] => []
  | (name, node) :: rest => node.walkFrom (p.join name) ++ walkEntries rest

/-- The path and everything below it. -/
def walk (tree : FileTree) (p : Path) : List (Path × Node) :=
  match tree.find p with
  | .ok node => node.walkFrom p
  | .error _ => []

/-- The files at or below a path that have the extension, in the order of paths. -/
def filesWithExtension (tree : FileTree) (p : Path) (extension : String) : List Path :=
  Path.sort <| (tree.walk p).filterMap fun (path, node) =>
    if node.isFile && path.extension? == some extension then some path else none

end SkillLint.FileTree
