import FlowScope.Snapshots
import FlowScope.Workflow.Basic
/-!
Watching snapshots. A watcher remembers, for every path, the content that it has seen there last,
and reads a snapshot again only when its content has changed.
-/
namespace FlowScope

/-- A watcher of one snapshot, or of the snapshots in a folder. -/
structure Watcher where
  path : String
  filter : IgnoreFilter
  /-- The last content at each path. -/
  seen : List (List PathPart × String) := []
deriving Repr, Inhabited

/-- What has happened to a path. -/
inductive ChangeKind where
  | created
  | modified
  | removed
  | other
deriving DecidableEq, Repr

/-- What a watcher has to tell. -/
inductive WatchEvent where
  | updated (path : String) (workflow : Workflow)
  | invalid (path : String) (cause : Json.Error)
  | removed (path : String)
deriving Repr, Inhabited

namespace Watcher

/-- The parts of the place that a path leads to; those of the path itself where it leads nowhere. -/
def canonical (t : FileTree) (path : String) : List PathPart :=
  match t.locate path with
  | .ok way => .root :: way.map .name
  | .error _ => Path.parts path

def folderOf (path : String) : String :=
  match IgnoreList.parentPath? path.toList with
  | some (c :: cs) => String.ofList (c :: cs)
  | some [] => if path.startsWith "/" then "/" else "."
  | none => "."

/-- The path of the folder that is watched. -/
def rootOf (t : FileTree) (path : String) : String :=
  let root := if t.isFile path then folderOf path else path
  match t.locate root with
  | .ok way => "/" ++ Path.ofNames way
  | .error _ => root

/-- A watcher that has seen nothing yet. -/
def make (t : FileTree) (path : String) (exclude : List String) : Watcher where
  path := path
  filter := IgnoreFilter.make t (rootOf t path) exclude

/-- Does the watcher care for a path? One for a file cares for everything of the file's name. -/
def watches (w : Watcher) (t : FileTree) (path : String) : Bool :=
  if t.isFile w.path || !t.exists? w.path then
    Path.parts path == Path.parts w.path || Path.fileName? path == Path.fileName? w.path
  else Path.isSnapshot path && !w.filter.ignores path false

def last? (w : Watcher) (key : List PathPart) : Option String :=
  (w.seen.find? (·.1 == key)).map (·.2)

def note (w : Watcher) (key : List PathPart) (content : String) : Watcher :=
  { w with seen := (key, content) :: w.seen.filter (·.1 != key) }

/-- Is the content at a path new? From now on it is not. -/
def shouldReload (w : Watcher) (key : List PathPart) (content : String) : Bool × Watcher :=
  if w.last? key = some content then (false, w) else (true, w.note key content)

/-- Forget what has been seen at a path, and tell whether there was anything. -/
def forget (w : Watcher) (key : List PathPart) : Bool × Watcher :=
  ((w.last? key).isSome, { w with seen := w.seen.filter (·.1 != key) })

/-- Leaving out the entries of one path does not touch those of another. -/
theorem find?_filter_of_ne {key other : List PathPart} (h : other ≠ key)
    (seen : List (List PathPart × String)) :
    (seen.filter (·.1 != key)).find? (·.1 == other) = seen.find? (·.1 == other) := by
  rw [List.find?_filter]
  congr 1
  funext p
  by_cases hp : p.1 = other
  · simp [hp, h]
  · simp [hp]

theorem last?_note_self (w : Watcher) (key : List PathPart) (content : String) :
    (w.note key content).last? key = some content := by
  simp [note, last?]

theorem last?_note_of_ne (w : Watcher) {key other : List PathPart} (h : other ≠ key)
    (content : String) : (w.note key content).last? other = w.last? other := by
  have hk : (key == other) = false := by simpa using fun e => h e.symm
  simp only [note, last?, List.find?_cons, hk, find?_filter_of_ne h]

theorem last?_forget_self (w : Watcher) (key : List PathPart) :
    (w.forget key).2.last? key = none := by
  simp [forget, last?, List.find?_eq_none]

theorem last?_forget_of_ne (w : Watcher) {key other : List PathPart} (h : other ≠ key) :
    (w.forget key).2.last? other = w.last? other := by
  simp only [forget, last?, find?_filter_of_ne h]

/-- Read the snapshot at a path, if it can be read and its content has changed. -/
def reload (w : Watcher) (t : FileTree) (path : String) :
    Option (Except Json.Error Workflow) × Watcher :=
  match t.read path with
  | .error _ => (none, w)
  | .ok content =>
      match w.shouldReload (canonical t path) content with
      | (false, w) => (none, w)
      | (true, w) => (some (Workflow.ofText content), w)

/-- What there is to tell when a path has been created or modified. -/
def changed (w : Watcher) (t : FileTree) (path : String) : List WatchEvent × Watcher :=
  if !t.isFile path || !w.watches t path then ([], w)
  else
    match w.reload t path with
    | (some (.ok workflow), w) => ([.updated path workflow], w)
    | (some (.error cause), w) => ([.invalid path cause], w)
    | (none, w) => ([], w)

/-- What there is to tell when a path has been removed. -/
def gone (w : Watcher) (path : String) : List WatchEvent × Watcher :=
  match w.forget (Path.parts path) with
  | (true, w) => ([.removed path], w)
  | (false, w) => ([], w)

/-- What there is to tell about one path after the other. -/
def handle (w : Watcher) (t : FileTree) (kind : ChangeKind) : List String → List WatchEvent × Watcher
  | [] => ([], w)
  | path :: rest =>
      let (events, w) :=
        match kind with
        | .created | .modified => w.changed t path
        | .removed => w.gone path
        | .other => ([], w)
      let (more, w) := w.handle t kind rest
      (events ++ more, w)

end Watcher

end FlowScope
