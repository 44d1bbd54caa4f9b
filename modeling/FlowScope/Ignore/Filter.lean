import FlowScope.Files.Tree
import FlowScope.Ignore.Patterns
/-!
The filter for the snapshots below a folder: the patterns of two files in the folder, patterns for
what is never a snapshot, and further patterns.
-/
namespace FlowScope

/-- A folder, as it is given, and the patterns for what is below it. -/
structure IgnoreFilter where
  root : String
  patterns : IgnoreList
deriving Repr, Inhabited

namespace IgnoreFilter

/-- Patterns for folders and files that hold no snapshots. -/
def builtin : List String := [
  "target/", "node_modules/", "dist/", "build/", "out/", "coverage/", ".git/", ".vscode/", ".idea/",
  "package.json", "package-lock.json", "tsconfig.json", "*.schema.json"]

/-- The patterns of a file; none if it cannot be read. -/
def listAt (t : FileTree) (path : String) : IgnoreList :=
  match t.read path with
  | .ok content => IgnoreList.ofText content
  | .error _ => []

def make (t : FileTree) (root : String) (exclude : List String) : IgnoreFilter where
  root := root
  patterns := listAt t (Path.join root ".gitignore") ++ listAt t (Path.join root ".ignore") ++
    IgnoreList.ofLines builtin ++ IgnoreList.ofLines exclude

/-- Take a text off the start of another. -/
def dropStart (start cs : List Char) : List Char :=
  if start.isPrefixOf cs then cs.drop start.length else cs

/-- A path below the folder, as it is seen from there. -/
def relative (f : IgnoreFilter) (path : String) : List Char :=
  let here := ['.', '/']
  let root := dropStart here f.root.toList
  let path := dropStart here path.toList
  if root != ['.'] && path.contains '/' && root.isPrefixOf path then
    dropStart ['/'] (path.drop root.length)
  else path

/-- Is the path ignored? Paths that are not below the folder never are. -/
def ignores (f : IgnoreFilter) (path : String) (isFolder : Bool) : Bool :=
  (Path.parts f.root).isPrefixOf (Path.parts path) &&
    f.patterns.ignores (String.ofList (f.relative path)) isFolder

end IgnoreFilter

end FlowScope
