import FlowScope.Walk
import FlowScope.Workflow.Index
/-!
The predecessors of a target: the nodes on the ways from the roots to it. The target itself is
never entered. A predecessor that lies on no way of normal edges is reached through failures only.
-/
namespace FlowScope.Index

variable (ix : Index)

def heads (accept : EdgeKind → Bool) (links : List Link) : List Nat :=
  (links.filter fun l => accept l.kind).map (·.node)

/-- The positions from which `t` can be reached over accepted edges, `t` itself left out. -/
def reaching (accept : EdgeKind → Bool) (t : Nat) : List Nat :=
  explore (fun v => heads accept (ix.into v)) (· != t) ix.size (heads accept (ix.into t)) []

/-- The positions on normal ways from the roots, the target not entered. -/
def normallyReached (t : Nat) : List Nat :=
  explore (fun v => heads EdgeKind.isNormal (ix.out v)) (· != t) ix.size ix.roots []

/-- The predecessors of `t` in the order of their discovery. A root has none. -/
def discovered (t : Nat) : List Nat :=
  if ix.isRoot t then []
  else
    let useful := ix.reaching (fun _ => true) t
    explore (fun v => heads (fun _ => true) (ix.out v)) useful.contains ix.size ix.roots []

/-- The predecessors of `t`, each with the mark of those that are reached through failures only. -/
def discover (t : Nat) : List (Nat × Bool) :=
  let before := ix.normallyReached t
  let after := ix.reaching EdgeKind.isNormal t
  (ix.discovered t).map fun p => (p, !(before.contains p && after.contains p))

/-- The predecessors of a node; one that is not known has none. -/
def findPredecessors (target : NodeId) : List (Node × Bool) :=
  match ix.position? target with
  | none => []
  | some t => (ix.discover t).map fun (p, viaException) => (ix.nodeAt p, viaException)

end FlowScope.Index
