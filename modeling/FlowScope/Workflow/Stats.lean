import FlowScope.Workflow.Index
/-!
Counts over the index of a workflow.
-/
namespace FlowScope

/-- Counts over a workflow. -/
structure Stats where
  nodes : Nat
  edges : Nat
  edgesByKind : List (EdgeKind × Nat)
  loops : Nat
  nested : Nat
  roots : Nat
deriving DecidableEq, Repr

/-- The number of edges of a kind. -/
def Index.countKind (ix : Index) (kind : EdgeKind) : Nat :=
  ix.outgoing.flatten.countP (·.kind == kind)

def Index.stats (ix : Index) : Stats where
  nodes := ix.size
  edges := ix.outgoing.flatten.length
  edgesByKind := EdgeKind.all.map fun kind => (kind, ix.countKind kind)
  loops := ix.nodes.countP (·.isLoop)
  nested := ix.parents.countP (·.isSome)
  roots := ix.roots.length

namespace Stats

/-- The counts as lines of text. -/
def render (s : Stats) : String :=
  "Workflow Graph Statistics:\n" ++
  "  Nodes: " ++ toString s.nodes ++ " (in loop bodies: " ++ toString s.nested ++ ")\n" ++
  "  Loops: " ++ toString s.loops ++ "\n" ++
  "  Roots: " ++ toString s.roots ++ "\n" ++
  "  Edges: " ++ toString s.edges ++ "\n" ++
  String.join (s.edgesByKind.map fun (kind, count) =>
    "    " ++ kind.name ++ ": " ++ toString count ++ "\n")

def toJson (s : Stats) : Json := .object [
  ("total_nodes", .nat s.nodes),
  ("total_edges", .nat s.edges),
  ("edges_by_kind", Json.list (fun (kind, count) => .array [kind.toJson, .nat count]) s.edgesByKind),
  ("loops", .nat s.loops),
  ("nested_nodes", .nat s.nested),
  ("roots", .nat s.roots)]

end Stats

end FlowScope
