import FlowScope.Order
import FlowScope.Predecessors
import FlowScope.Scope.Exposed
/-!
The scope of a node: the nodes before it whose arguments it may refer to, in an order in which each
comes after what leads to it. The nodes in the body of a loop are out of sight unless the target is
in that body too, and the loops around the target always belong to its scope. A loop also sees
the ends of its own body, with the values of all rounds collected.
-/
namespace FlowScope

/-- A node in a scope, with the arguments it exposes there. -/
structure ScopeNode where
  id : NodeId
  name : String
  type : NodeType
  arguments : List Argument
  /-- Reached through failures only. -/
  viaException : Bool
deriving Repr, Inhabited

/-- What a node may refer to. -/
structure Scope where
  previous : List ScopeNode := []
  /-- Nodes of the target's own body, when the target is a loop. -/
  inner : List ScopeNode := []
  arguments : ArgumentMap := {}
deriving Repr, Inhabited

namespace Index

variable (ix : Index)

/-- The nodes that are in no body, or in one that encloses the target. -/
def visible (chain ordered : List Nat) : List Nat :=
  ordered.filter fun p =>
    match ix.parent p with
    | none => true
    | some l => chain.contains l

/-- Put the loop at `l` before the first node that it encloses, or at the end; not when it is there
already. -/
def withLoop (l : Nat) (nodes : List Nat) : List Nat :=
  if nodes.contains l then nodes
  else
    let isOutside := fun p => !(ix.loopChain p).contains l
    nodes.takeWhile isOutside ++ l :: nodes.dropWhile isOutside

/-- Put in the loops around the target that are missing, the outermost first. -/
def withLoops (chain nodes : List Nat) : List Nat :=
  chain.foldr ix.withLoop nodes

/-- The nodes before the target that it can see, in order. -/
def scopeOrder (t : Nat) : List Nat :=
  let chain := ix.loopChain t
  ix.withLoops chain (ix.visible chain (ix.topologicalOrder ((ix.discover t).map (·.1))))

/-- The nodes of a loop's body that its end node comes after, and the end node itself, in order. -/
def bodyOrder (l : Nat) : List Nat :=
  match ((ix.nodeAt l).innerEnd.bind ix.position?).filter fun e => ix.parent e == some l with
  | none => []
  | some e =>
      let found := explore (fun v => (ix.into v).map (·.node)) (fun v => ix.parent v == some l)
        ix.size [e] []
      ix.topologicalOrder (ix.positions.filter found.contains)

def entry (p : Nat) (arguments : List Argument) (viaException : Bool) : ScopeNode :=
  let n := ix.nodeAt p
  ⟨n.id, n.name, n.type, arguments, viaException⟩

end Index

/-- Make the entries of nodes one after the other, each given the arguments of those before it. -/
def collectScope (entryAt : Nat → ArgumentMap → ScopeNode) :
    List Nat → ArgumentMap → List ScopeNode × ArgumentMap
  | [], m => ([], m)
  | p :: rest, m =>
      let e := entryAt p m
      let (entries, m) := collectScope entryAt rest (m.insertNode e.id e.arguments)
      (e :: entries, m)

namespace Index

variable (ix : Index)

/-- The entry of a node before the target, given the loops around the target and the predecessors
that were discovered. -/
def previousEntry (system : List Argument) (chain : List Nat) (found : List (Nat × Bool)) (p : Nat)
    (m : ArgumentMap) : ScopeNode :=
  ix.entry p ((ix.nodeAt p).exposed system (chain.contains p) m)
    (found.any fun (q, viaException) => q == p && viaException)

def innerEntry (system : List Argument) (p : Nat) (m : ArgumentMap) : ScopeNode :=
  ix.entry p (((ix.nodeAt p).exposed system false m).map Argument.collected) false

/-- The entry for the variables of the target itself, if it has any. -/
def ownEntry (t : Nat) (m : ArgumentMap) : List ScopeNode :=
  match (ix.nodeAt t).loopVariables m with
  | [] => []
  | vars => [ix.entry t vars false]

/-- The scope of the node at a position, given the variables of the system. -/
def scopeAt (system : List Argument) (t : Nat) : Scope :=
  let (previous, m) :=
    collectScope (ix.previousEntry system (ix.loopChain t) (ix.discover t)) (ix.scopeOrder t) {}
  if (ix.nodeAt t).isLoop then
    let (inner, m) := collectScope (ix.innerEntry system) (ix.bodyOrder t) m
    let own := ix.ownEntry t m
    { previous
      inner := inner ++ own
      arguments := own.foldl (fun m e => m.insertNode e.id e.arguments) m }
  else { previous, arguments := m }

end Index

/-- The variables of the system in a workflow: built-in ones, those of the workflow, further ones. -/
def Workflow.allSystemVariables (w : Workflow) (further : List Argument) : List Argument :=
  FlowScope.systemVariables (w.systemVariables ++ further)

/-- The scope of a node, given further variables of the system. An unknown node has an empty scope. -/
def Workflow.scope (w : Workflow) (further : List Argument) (target : NodeId) : Scope :=
  let ix := w.index
  match ix.position? target with
  | none => {}
  | some t => ix.scopeAt (w.allSystemVariables further) t

namespace Scope

/-- Is there nothing to refer to? -/
def isEmpty (s : Scope) : Bool := s.previous.isEmpty && s.inner.isEmpty

/-- The nodes before the target. -/
def previousIds (s : Scope) : List NodeId := s.previous.map (·.id)

end Scope

namespace ScopeNode

def toJson (n : ScopeNode) : Json := .object [
  ("id", n.id.toJson),
  ("name", .text n.name),
  ("type", n.type.toJson),
  ("outputArgs", Argument.manyToJson n.arguments),
  ("viaException", .bool n.viaException)]

end ScopeNode

def Scope.toJson (s : Scope) : Json := .object [
  ("previousNodes", Json.list ScopeNode.toJson s.previous),
  ("innerPreviousNodes", Json.list ScopeNode.toJson s.inner),
  ("argMap", s.arguments.toJson)]

end FlowScope
