import FlowScope.Ignore.Glob
import FlowScope.Text.Blank
/-!
Lists of patterns for paths to be ignored, as files such as `.gitignore` hold them. Of the patterns
that match a path the last one decides.
-/
namespace FlowScope

/-- A pattern. -/
structure IgnorePattern where
  glob : Glob
  /-- Paths that match are not ignored after all. -/
  keeps : Bool
  /-- Nothing but folders match. -/
  foldersOnly : Bool
deriving Repr, Inhabited

/-- What a list of patterns says about a path. -/
inductive Verdict where
  | none
  | ignored
  | kept
deriving DecidableEq, Repr

/-- The first of two verdicts that says anything. -/
def Verdict.or : Verdict → Verdict → Verdict
  | .none, v => v
  | v, _ => v

namespace IgnorePattern

/-- Does the text have a character at its end? -/
def endsIn (c : Char) (cs : List Char) : Bool := cs.getLast? == some c

/-- Take a slash off the end, and a backslash before it. -/
def dropLastSlash (cs : List Char) : List Char :=
  let cs := cs.dropLast
  if endsIn '\\' cs then cs.dropLast else cs

/-- The glob of a pattern, given whether it begins at the folder of the list. A pattern without slashes
matches in every folder, and two stars at the end match what is in a folder, not the folder. -/
def globText (anchored : Bool) (cs : List Char) : List Char :=
  let everywhere := !anchored && !cs.contains '/' && cs != ['*', '*']
  let cs := if everywhere then ['*', '*', '/'] ++ cs else cs
  if ['/', '*', '*'].isSuffixOf cs then cs ++ ['/', '*'] else cs

/-- A pattern without its sign of negation. -/
def ofBody? (keeps anchored : Bool) (cs : List Char) : Option IgnorePattern :=
  let foldersOnly := endsIn '/' cs
  let cs := if foldersOnly then dropLastSlash cs else cs
  (Glob.ofChars? (globText anchored cs)).map fun glob => ⟨glob, keeps, foldersOnly⟩

/-- A pattern without its sign of negation; a slash at the start makes it begin at the folder of the
list. -/
def ofAnchored? (keeps : Bool) : List Char → Option IgnorePattern
  | '/' :: rest => ofBody? keeps true rest
  | cs => ofBody? keeps false cs

/-- The pattern of a line, if there is one. Blanks at the end do not count, unless a backslash
precedes a blank there. -/
def ofLine? (line : List Char) : Option IgnorePattern :=
  if line.head? = some '#' then none
  else
    match (if ['\\', ' '].isSuffixOf line then line else Text.trimEnd line) with
    | [] => none
    | '\\' :: '!' :: rest => ofBody? false false ('!' :: rest)
    | '\\' :: '#' :: rest => ofBody? false false ('#' :: rest)
    | '!' :: rest => ofAnchored? true rest
    | cs => ofAnchored? false cs

def matchesPath (p : IgnorePattern) (path : List Char) (isFolder : Bool) : Bool :=
  (isFolder || !p.foldersOnly) && p.glob.isMatch path

end IgnorePattern

/-- Patterns in their order. -/
abbrev IgnoreList := List IgnorePattern

namespace IgnoreList

/-- Take a carriage return off the end of a line. -/
def dropReturn (line : List Char) : List Char :=
  if line.getLast? = some '\r' then line.dropLast else line

/-- The patterns of a file. -/
def ofText (content : String) : IgnoreList :=
  let cs := content.toList
  let cs := if cs.head? = some '\uFEFF' then cs.drop 1 else cs
  ((cs.splitOn '\n').map dropReturn).filterMap IgnorePattern.ofLine?

/-- The patterns of lines given one by one. -/
def ofLines (lines : List String) : IgnoreList :=
  lines.filterMap fun line => IgnorePattern.ofLine? line.toList

/-- What the list says about a path below its folder. -/
def verdict (l : IgnoreList) (path : List Char) (isFolder : Bool) : Verdict :=
  match l.reverse.find? (·.matchesPath path isFolder) with
  | none => .none
  | some p => if p.keeps then .kept else .ignored

/-- Take off what means nothing at the end of a path: slashes, and dots alone after a slash. -/
def dropIdleEnd : List Char → List Char
  | '/' :: rest => dropIdleEnd rest
  | '.' :: '/' :: rest => dropIdleEnd ('/' :: rest)
  | cs => cs

/-- The folder of a path, if the path has any part at all. -/
def parentPath? (path : List Char) : Option (List Char) :=
  match dropIdleEnd path.reverse with
  | [] => none
  | back => some (dropIdleEnd (back.dropWhile (· != '/'))).reverse

/-- What the list says about a path or else about the folders that it is in, the nearest one
first. -/
def verdictUp (l : IgnoreList) : Nat → List Char → Bool → Verdict
  | 0, path, isFolder => l.verdict path isFolder
  | fuel + 1, path, isFolder =>
      (l.verdict path isFolder).or
        (match parentPath? path with
          | none => .none
          | some folder => l.verdictUp fuel folder true)

/-- Is a path below the folder of the list ignored, itself or with a folder that it is in? -/
def ignores (l : IgnoreList) (path : String) (isFolder : Bool) : Bool :=
  l.verdictUp path.length path.toList isFolder == .ignored

end IgnoreList

end FlowScope
