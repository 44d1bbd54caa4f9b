import FlowScope.NodeId
import FlowScope.Json.Record
/-!
Edges between nodes and their kinds.
-/
namespace FlowScope

/-- Why one node follows another. -/
inductive EdgeKind where
  /-- The node names its successor. -/
  | next
  /-- A branch of the node leads there. -/
  | branch
  /-- The successor takes over when the node fails. -/
  | exception
  /-- The workflow's own list of edges has it. -/
  | supplemental
  /-- The body of the loop begins there. -/
  | loopBody
deriving DecidableEq, Repr

namespace EdgeKind

/-- Every kind, in order. -/
def all : List EdgeKind := [next, branch, exception, supplemental, loopBody]

def name : EdgeKind → String
  | next => "next"
  | branch => "branch"
  | exception => "exception"
  | supplemental => "supplemental"
  | loopBody => "loop_body"

def names : EdgeKind → List String
  | next => ["next"]
  | branch => ["branch", "condition", "intent", "option"]
  | exception => ["exception", "error"]
  | supplemental => ["supplemental", "edge"]
  | loopBody => ["loop_body", "loop"]

/-- The kind that a name stands for, whatever the case of its letters. No letter outside A to Z has
a letter of these names as its small form, so only those letters are made small. -/
def parse (given : String) : Except Malformed EdgeKind :=
  let lower := String.ofList (given.toList.map Char.toLower)
  match all.find? fun kind => kind.names.contains lower with
  | some kind => .ok kind
  | none => .error (.edgeKind given)

/-- Is the edge taken when nothing fails? -/
def isNormal : EdgeKind → Bool
  | exception => false
  | _ => true

def toJson (kind : EdgeKind) : Json := .text kind.name

end EdgeKind

/-- An edge between two nodes. -/
structure Edge where
  source : NodeId
  target : NodeId
  kind : EdgeKind := .supplemental
deriving DecidableEq, Repr

namespace Edge

/-- The edge in the other direction. -/
def reversed (e : Edge) : Edge := ⟨e.target, e.source, e.kind⟩

inductive Field where
  | source | target
deriving DecidableEq, Repr

/-- The fields in order, with their keys. -/
def layout : Json.Layout Field where
  record := "Record"
  fields := [.source, .target]
  key
    | .source => "source"
    | .target => "target"

/-- How the fields are read. Both are needed. -/
def schema : Json.Schema Field fun _ => NodeId where
  toLayout := layout
  read _ := NodeId.read
  empty _ := ⟨""⟩
  neededInObject _ := true

/-- Read an edge of the workflow's own list, which has ends but no kind. -/
def read : Json.Decoder Edge := fun depth j =>
  (schema.readFields depth j).map fun v => ⟨v .source, v .target, .supplemental⟩

def toJson (e : Edge) : Json :=
  .object [("source", e.source.toJson), ("target", e.target.toJson), ("kind", e.kind.toJson)]

end Edge

end FlowScope
