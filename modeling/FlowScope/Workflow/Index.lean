import FlowScope.Workflow.Basic
/-!
The index of a workflow: every node at a position, in preorder, and the edges between positions.
An edge is there once at most for every two nodes, and it is of the first kind under which the
workflow has it.
-/
namespace FlowScope

/-- A node in the index, with the position of the node that it is nested in. -/
structure Placed where
  node : Node
  container : Option Nat
deriving Repr, Inhabited

/-- One end of an edge, seen from the other end. -/
structure Link where
  node : Nat
  kind : EdgeKind
deriving DecidableEq, Repr

mutual

/-- List a node and then the nodes nested in it. A node whose identifier is listed already is left
out, and all that is nested in it. -/
def Placed.add (container : Option Nat) : Node → List Placed → List Placed
  | n@⟨id, _, _, _, _, _, inner, configInner, _, _⟩, placed =>
      if placed.any (·.node.id == id) then placed
      else
        let position := placed.length
        Placed.addAll (some position) configInner
          (Placed.addAll (some position) inner (placed ++ [⟨n, container⟩]))

/-- List nodes one after the other. -/
def Placed.addAll (container : Option Nat) : List Node → List Placed → List Placed
  | [], placed => placed
  | n :: rest, placed => Placed.addAll container rest (Placed.add container n placed)

end

def Placed.position? (placed : List Placed) (id : NodeId) : Option Nat :=
  placed.findIdx? (·.node.id == id)

/-- The enclosing position of each node: that of the loop it says it is in, if that is another node
and a loop, and otherwise that of its container. -/
def Placed.parents (placed : List Placed) : List (Option Nat) :=
  placed.mapIdx fun i p =>
    let declared := (p.node.loop.bind (position? placed)).filter fun l =>
      l != i && placed[l]?.any (·.node.isLoop)
    declared.or p.container

/-- What a workflow says about the successors of a node, in the order of the kinds. -/
def Workflow.declared (w : Workflow) (n : Node) : List (NodeId × EdgeKind) :=
  n.next.map (·, .next) ++ n.branches.map (·, .branch) ++ n.handlers.map (·, .exception) ++
    (w.edges.filter (·.source == n.id)).map (·.target, .supplemental)

/-- One more link, unless there is one to the same node. -/
def Link.push (links : List Link) (l : Link) : List Link :=
  if links.any (·.node == l.node) then links else links ++ [l]

/-- The links of what is said about the successors of the node at position `i`. Unknown nodes, the
node itself, the loop that it says it is in and its enclosing node do not count. -/
def Placed.links (placed : List Placed) (parents : List (Option Nat)) (i : Nat) (loop : Option NodeId)
    (declared : List (NodeId × EdgeKind)) : List Link :=
  declared.foldl (fun links (id, kind) =>
    match position? placed id with
    | none => links
    | some t =>
        if some id == loop || some t == parents[i]?.join || t == i then links
        else Link.push links ⟨t, kind⟩) []

/-- The members of a body: the positions whose parent is `l`. -/
def membersOf (parents : List (Option Nat)) (l : Nat) : List Nat :=
  (List.range parents.length).filter fun i => parents[i]?.join == some l

/-- Where the body of the loop at `l` begins: at its start node, if that belongs to the body, and
otherwise at every member that no other member leads to. -/
def Placed.entries (placed : List Placed) (parents : List (Option Nat)) (table : List (List Link))
    (l : Nat) : List Nat :=
  let body := membersOf parents l
  match (placed[l]?.bind (·.node.innerStart)).bind (position? placed) |>.filter body.contains with
  | some start => [start]
  | none =>
      body.filter fun b => body.all fun a => (table[a]?.getD []).all (·.node != b)

/-- Add the links from the loop at `l` to the entries of its body. -/
def Placed.enterBody (placed : List Placed) (parents : List (Option Nat))
    (table : List (List Link)) (l : Nat) : List (List Link) :=
  if placed[l]?.any (·.node.isLoop) then
    let entries := entries placed parents table l
    table.modify l fun links =>
      entries.foldl (fun links e => Link.push links ⟨e, .loopBody⟩) links
  else table

/-- The links into position `t`, from the first source to the last. -/
def Link.into (table : List (List Link)) (t : Nat) : List Link :=
  (List.range table.length).flatMap fun s =>
    ((table[s]?.getD []).filter (·.node == t)).map fun l => ⟨s, l.kind⟩

/-- A workflow laid out by position. -/
structure Index where
  placed : List Placed
  parents : List (Option Nat)
  outgoing : List (List Link)
  incoming : List (List Link)
deriving Repr

def Workflow.index (w : Workflow) : Index :=
  let placed := Placed.addAll none w.nodes []
  let parents := Placed.parents placed
  let plain := placed.mapIdx fun i p =>
    Placed.links placed parents i p.node.loop (w.declared p.node)
  let outgoing := (List.range placed.length).foldl (Placed.enterBody placed parents) plain
  { placed, parents, outgoing
    incoming := (List.range placed.length).map (Link.into outgoing) }

namespace Index

variable (ix : Index)

/-- The number of nodes. -/
def size : Nat := ix.placed.length

/-- Every position, in order. -/
def positions : List Nat := List.range ix.size

def position? (id : NodeId) : Option Nat := Placed.position? ix.placed id

def contains (id : NodeId) : Bool := (ix.position? id).isSome

def nodeAt (i : Nat) : Node := (ix.placed[i]?.map (·.node)).getD default

def nodes : List Node := ix.placed.map (·.node)

def out (i : Nat) : List Link := ix.outgoing[i]?.getD []

def into (i : Nat) : List Link := ix.incoming[i]?.getD []

/-- The position that encloses another. -/
def parent (i : Nat) : Option Nat := ix.parents[i]?.join

/-- The positions directly enclosed by `l`. -/
def body (l : Nat) : List Nat := ix.positions.filter fun i => ix.parent i == some l

/-- Is there an edge between two positions? -/
def hasEdge (u v : Nat) : Bool := (ix.out u).any (·.node == v)

/-- Is the position one where the workflow may begin? These are the nodes without incoming edges,
and every start. -/
def isRoot (i : Nat) : Bool := (ix.into i).isEmpty || (ix.nodeAt i).type == .start

/-- The positions where the workflow may begin, in order. -/
def roots : List Nat := ix.positions.filter ix.isRoot

/-- Go from parent to parent until there is none, or one seen before. -/
def climb : Nat → List Nat → Option Nat → List Nat
  | _, _, none => []
  | 0, _, _ => []
  | fuel + 1, seen, some l =>
      if seen.contains l then [] else l :: climb fuel (l :: seen) (ix.parent l)

/-- The enclosing positions of a position, the innermost first. -/
def loopChain (i : Nat) : List Nat := ix.climb ix.size [i] (ix.parent i)

/-- The edges out of a node. -/
def successors (id : NodeId) : List Edge :=
  match ix.position? id with
  | none => []
  | some i => (ix.out i).map fun l => ⟨(ix.nodeAt i).id, (ix.nodeAt l.node).id, l.kind⟩

/-- The edges into a node. -/
def predecessors (id : NodeId) : List Edge :=
  match ix.position? id with
  | none => []
  | some i => (ix.into i).map fun l => ⟨(ix.nodeAt l.node).id, (ix.nodeAt i).id, l.kind⟩

end Index

end FlowScope
