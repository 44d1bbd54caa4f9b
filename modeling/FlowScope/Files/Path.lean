/-!
Paths as text, and the parts they are made of.
-/
namespace FlowScope

/-- A part of a path. -/
inductive PathPart where
  | root
  | here
  | up
  | name (s : String)
deriving DecidableEq, Repr

namespace Path

/-- The part that a piece between two slashes stands for; a dot alone stands for nothing there. -/
def partOf? (piece : List Char) : Option PathPart :=
  if piece = [] || piece = ['.'] then none
  else if piece = ['.', '.'] then some .up
  else some (.name (String.ofList piece))

/-- The parts of a path. A slash at the start is the root; a dot alone counts at the start only. -/
def parts (path : String) : List PathPart :=
  let pieces := path.toList.splitOn '/'
  let start : List PathPart :=
    match pieces with
    | [] :: _ :: _ => [.root]
    | ['.'] :: _ => [.here]
    | _ => []
  start ++ pieces.filterMap partOf?

/-- The name of the file or folder that a path leads to, if its last part is a name. -/
def fileName? (path : String) : Option String :=
  match (parts path).getLast? with
  | some (.name s) => some s
  | _ => none

/-- What follows the last dot of a name, unless the dot is the first character or there is none. -/
def extensionOf? (name : String) : Option String :=
  let ending := name.toList.reverse.takeWhile (· != '.')
  match name.toList.reverse.dropWhile (· != '.') with
  | '.' :: _ :: _ => some (String.ofList ending.reverse)
  | _ => none

def extension? (path : String) : Option String := (fileName? path).bind extensionOf?

/-- A path below a folder. An absolute one stays as it is. -/
def join (folder path : String) : String :=
  if path.startsWith "/" then path
  else if folder.isEmpty || folder.endsWith "/" then folder ++ path
  else folder ++ "/" ++ path

/-- Names with a slash between each two. -/
def ofNames (names : List String) : String := String.intercalate "/" names

/-- Is it the path of a snapshot? Snapshots have the extension `json`, whatever the case. -/
def isSnapshot (path : String) : Bool :=
  match extension? path with
  | none => false
  | some e => e.toList.map Char.toLower == ['j', 's', 'o', 'n']

end Path

end FlowScope
