import FlowScope.Files.Path
/-!
Files and folders. A folder is there when it has been made, and when there is anything in it.
-/
namespace FlowScope

/-- What is wrong with a path that should lead to a file. -/
inductive FileError where
  | missing
  | isFolder
  | notFolder
deriving DecidableEq, Repr

def FileError.message : FileError → String
  | missing => "No such file or directory (os error 2)"
  | isFolder => "Is a directory (os error 21)"
  | notFolder => "Not a directory (os error 20)"

/-- Files with their contents, folders, and the folder in which relative paths begin. Every file and
folder is known by the names on the way to it from the root. -/
structure FileTree where
  files : List (List String × String) := []
  folders : List (List String) := []
  current : List String := []
deriving Repr, Inhabited

namespace FileTree

def content? (t : FileTree) (way : List String) : Option String :=
  (t.files.find? (·.1 == way)).map (·.2)

def hasFile (t : FileTree) (way : List String) : Bool := (t.content? way).isSome

def hasFolder (t : FileTree) (way : List String) : Bool :=
  way.isEmpty || t.folders.any (way.isPrefixOf ·) || way.isPrefixOf t.current ||
    t.files.any fun (file, _) => way.isPrefixOf file && way != file

/-- Is there anything at the end of a way? -/
def hasAny (t : FileTree) (way : List String) : Bool := t.hasFile way || t.hasFolder way

/-- Follow the parts of a path. Every place on the way has to be a folder. -/
def follow (t : FileTree) : List PathPart → List String → Except FileError (List String)
  | [], at_ => .ok at_
  | part :: rest, at_ =>
      if !t.hasFolder at_ then .error (if t.hasFile at_ then .notFolder else .missing)
      else
        match part with
        | .root => t.follow rest []
        | .here => t.follow rest at_
        | .up => t.follow rest at_.dropLast
        | .name s =>
            if t.hasAny (at_ ++ [s]) then t.follow rest (at_ ++ [s]) else .error .missing

/-- Does the path insist on a folder? -/
def wantsFolder (path : String) : Bool := path.endsWith "/" || path.endsWith "/."

/-- The way to what a path leads to. -/
def locate (t : FileTree) (path : String) : Except FileError (List String) :=
  if path.isEmpty then .error .missing
  else
    match t.follow (Path.parts path) t.current with
    | .error e => .error e
    | .ok way => if wantsFolder path && !t.hasFolder way then .error .notFolder else .ok way

def isFile (t : FileTree) (path : String) : Bool :=
  match t.locate path with
  | .ok way => t.hasFile way
  | .error _ => false

/-- Does the path lead anywhere? -/
def exists? (t : FileTree) (path : String) : Bool := (t.locate path).toOption.isSome

def read (t : FileTree) (path : String) : Except FileError String :=
  match t.locate path with
  | .error e => .error e
  | .ok way =>
      match t.content? way with
      | some content => .ok content
      | none => .error .isFolder

/-- The tree with a file written, in folders that are made where they are missing. -/
def write (t : FileTree) (way : List String) (content : String) : FileTree :=
  { t with
    files := (t.files.filter (·.1 != way)) ++ [(way, content)]
    folders := way.dropLast :: t.folders }

/-- The way to where a path would lead if the folders on it were made. Nothing can be below a file. -/
def destination (t : FileTree) : List PathPart → List String → Except FileError (List String)
  | [], at_ => .ok at_
  | part :: rest, at_ =>
      if t.hasFile at_ then .error .notFolder
      else
        match part with
        | .root => t.destination rest []
        | .here => t.destination rest at_
        | .up => t.destination rest at_.dropLast
        | .name s => t.destination rest (at_ ++ [s])

/-- Write the file that a path leads to, in folders that are made where they are missing. -/
def save (t : FileTree) (path content : String) : Except FileError FileTree :=
  if path.isEmpty then .error .missing
  else
    match t.destination (Path.parts path) t.current with
    | .error e => .error e
    | .ok way =>
        if wantsFolder path || t.hasFolder way then .error .isFolder
        else .ok (t.write way content)

/-- The tree without a file. The folder it was in stays. -/
def remove (t : FileTree) (way : List String) : FileTree :=
  { t with files := t.files.filter (·.1 != way) }

theorem content?_write_self (t : FileTree) (way : List String) (content : String) :
    (t.write way content).content? way = some content := by
  have h : (t.files.filter (·.1 != way)).find? (·.1 == way) = none := by
    simp [List.find?_eq_none]
  simp [write, content?, List.find?_append, h]

theorem content?_remove_self (t : FileTree) (way : List String) :
    (t.remove way).content? way = none := by
  simp [remove, content?, List.find?_eq_none]

end FileTree

end FlowScope
