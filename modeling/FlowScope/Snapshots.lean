import FlowScope.Ignore.Filter
/-!
The snapshots below a folder. The walk through the folders leaves out hidden names and what the
ignore files of the folders on the way say, those of the nearest folder first; what it finds then has
to pass the filter of the folder where it began.
-/
namespace FlowScope

namespace FileTree

/-- The folders on the way to a place, the nearest one first, each with the names from there on. -/
def folders? : List String → List (List String × List String)
  | [] => []
  | name :: rest =>
      (folders? rest).map (fun (folder, below) => (name :: folder, below)) ++ [([], name :: rest)]

def patternsIn (t : FileTree) (folder : List String) (name : List String) : IgnoreList :=
  match t.content? (folder ++ name) with
  | some content => IgnoreList.ofText content
  | none => []

/-- What the named files of the folders on the way say about a place. -/
def verdictOf (t : FileTree) (file : List String)
    (way : List (List String × List String)) (isFolder : Bool) : Verdict :=
  way.foldr (fun (folder, below) later =>
    ((t.patternsIn folder file).verdict (Path.ofNames below).toList isFolder).or later) .none

def isRepository (t : FileTree) (folder : List String) : Bool := t.hasAny (folder ++ [".git"])

/-- The folders up to the root of the nearest repository. -/
def withinRepository (t : FileTree) (way : List (List String × List String)) :
    List (List String × List String) :=
  if way.any fun (folder, _) => t.isRepository folder then
    let outside := fun (entry : List String × List String) => !t.isRepository entry.1
    way.takeWhile outside ++ (way.dropWhile outside).take 1
  else []

/-- Does the walk leave out a place? -/
def skips (t : FileTree) (place : List String) (isFolder : Bool) : Bool :=
  let way := folders? place
  let repository := t.withinRepository way
  let verdict := (t.verdictOf [".ignore"] way isFolder).or
    ((t.verdictOf [".gitignore"] repository isFolder).or
      (t.verdictOf [".git", "info", "exclude"] repository isFolder))
  match verdict with
  | .ignored => true
  | .kept => false
  | .none => (place.getLast?.map (·.startsWith ".")).getD false

/-- Does the walk that begins in a folder come to a file, of which the names from the folder on are
given? -/
def reachesFile (t : FileTree) (start : List String) : List String → Bool
  | [] => true
  | name :: rest => !t.skips (start ++ [name]) (!rest.isEmpty) && t.reachesFile (start ++ [name]) rest

end FileTree

/-- The order of paths by their names, one after the other. -/
def namesLE : List String → List String → Bool
  | [], _ => true
  | _ :: _, [] => false
  | a :: as, b :: bs => if a = b then namesLE as bs else a < b

/-- The path itself if it leads to a file, and otherwise the snapshots below it in their order. -/
def findSnapshots (t : FileTree) (path : String) (exclude : List String) : List String :=
  if t.isFile path then [path]
  else
    match t.locate path with
    | .error _ => []
    | .ok start =>
        let filter := IgnoreFilter.make t path exclude
        let below := t.files.filterMap fun (file, _) =>
          if start.isPrefixOf file then some (file.drop start.length) else none
        let found := below.filter fun names =>
          let p := Path.join path (Path.ofNames names)
          t.reachesFile start names && Path.isSnapshot p && !filter.ignores p false
        (found.mergeSort namesLE).map fun names => Path.join path (Path.ofNames names)

end FlowScope
