import FlowScope.Check
/-!
What a scope depends on. The walks over an index, the orders and the loops around a node read the
edges, the enclosing positions and three things of every node: its identifier, its type and the end
node of its body. So indices that agree on these have the same walks in them; and where the nodes
that a scope is made of are also the same by themselves, the scopes are the same.
-/
namespace FlowScope

/-- A node by itself, without the nodes nested in it and the loop that it says it is in. -/
def Node.bare (n : Node) : Node :=
  { n with loop := none, inner := [], configInner := [] }

/-- The same nodes by themselves agree in all that is read of them by themselves. -/
theorem Node.map_eq_of_bare {ns ns' : List Node} (h : ns'.map Node.bare = ns.map Node.bare)
    {α : Type} {f : Node → α} (hf : ∀ n, f n.bare = f n) : ns'.map f = ns.map f := by
  simpa [Function.comp_def, hf] using congrArg (List.map f) h

/-- Where an identifier stands depends on the identifiers only. -/
theorem Placed.position?_congr {placed placed' : List Placed}
    (h : (placed'.map (·.node)).map (·.id) = (placed.map (·.node)).map (·.id)) :
    position? placed' = position? placed := by
  have hfind : ∀ (placed : List Placed) (id : NodeId),
      position? placed id = ((placed.map (·.node)).map (·.id)).findIdx? (· == id) := by
    intro placed id
    rw [List.map_map, List.findIdx?_map]
    rfl
  funext id
  rw [hfind, hfind, h]

namespace Index

/-- Two indices have the same edges between nodes of the same identifiers and types. -/
structure SameShape (ix ix' : Index) : Prop where
  ids_eq : ix'.nodes.map (·.id) = ix.nodes.map (·.id)
  types_eq : ix'.nodes.map (·.type) = ix.nodes.map (·.type)
  ends_eq : ix'.nodes.map (·.innerEnd) = ix.nodes.map (·.innerEnd)
  parents_eq : ix'.parents = ix.parents
  outgoing_eq : ix'.outgoing = ix.outgoing
  incoming_eq : ix'.incoming = ix.incoming

variable {ix ix' : Index}

/-- Two listings that agree in what is read of every node agree in it at every position. -/
theorem nodeAt_eq {α : Type} {f : Node → α} (h : ix'.nodes.map f = ix.nodes.map f) (i : Nat) :
    f (ix'.nodeAt i) = f (ix.nodeAt i) := by
  have hread : ∀ ix : Index, f (ix.nodeAt i) = (ix.nodes.map f)[i]?.getD (f default) := by
    intro ix
    rw [List.getElem?_map, Option.getD_map, nodeAt, nodes, List.getElem?_map]
  rw [hread, hread, h]

namespace SameShape

/-- Indices of the same nodes have the same shape when their edges and enclosing positions are the
same. -/
theorem of_bare (hbare : ix'.nodes.map Node.bare = ix.nodes.map Node.bare)
    (hparents : ix'.parents = ix.parents) (houtgoing : ix'.outgoing = ix.outgoing)
    (hincoming : ix'.incoming = ix.incoming) : SameShape ix ix' where
  ids_eq := Node.map_eq_of_bare hbare fun _ => rfl
  types_eq := Node.map_eq_of_bare hbare fun _ => rfl
  ends_eq := Node.map_eq_of_bare hbare fun _ => rfl
  parents_eq := hparents
  outgoing_eq := houtgoing
  incoming_eq := hincoming

variable (h : SameShape ix ix')

include h

theorem type_nodeAt (i : Nat) : (ix'.nodeAt i).type = (ix.nodeAt i).type :=
  nodeAt_eq h.types_eq i

theorem innerEnd_nodeAt (i : Nat) : (ix'.nodeAt i).innerEnd = (ix.nodeAt i).innerEnd :=
  nodeAt_eq h.ends_eq i

theorem size_eq : ix'.size = ix.size := by
  simpa [nodes, size] using congrArg List.length h.ids_eq

theorem positions_eq : ix'.positions = ix.positions := by rw [positions, positions, h.size_eq]

theorem position?_eq : ix'.position? = ix.position? := Placed.position?_congr h.ids_eq

theorem out_eq : ix'.out = ix.out := by
  funext i
  rw [out, out, h.outgoing_eq]

theorem into_eq : ix'.into = ix.into := by
  funext i
  rw [into, into, h.incoming_eq]

theorem parent_eq : ix'.parent = ix.parent := by
  funext i
  rw [parent, parent, h.parents_eq]

theorem hasEdge_eq : ix'.hasEdge = ix.hasEdge := by
  funext u v
  rw [hasEdge, hasEdge, h.out_eq]

theorem isRoot_eq : ix'.isRoot = ix.isRoot := by
  funext i
  rw [isRoot, isRoot, h.into_eq, h.type_nodeAt]

theorem roots_eq : ix'.roots = ix.roots := by rw [roots, roots, h.positions_eq, h.isRoot_eq]

theorem climb_eq (fuel : Nat) (seen : List Nat) (l : Option Nat) :
    ix'.climb fuel seen l = ix.climb fuel seen l := by
  induction fuel generalizing seen l with
  | zero => cases l <;> rfl
  | succ fuel ih =>
      cases l with
      | none => rfl
      | some l => rw [climb, climb, h.parent_eq, ih]

theorem loopChain_eq : ix'.loopChain = ix.loopChain := by
  funext i
  rw [loopChain, loopChain, h.size_eq, h.parent_eq, h.climb_eq]

theorem reaching_eq : ix'.reaching = ix.reaching := by
  funext accept t
  rw [reaching, reaching, h.into_eq, h.size_eq]

theorem discover_eq : ix'.discover = ix.discover := by
  have hnormal : ix'.normallyReached = ix.normallyReached := by
    funext t
    rw [normallyReached, normallyReached, h.out_eq, h.size_eq, h.roots_eq]
  have hdiscovered : ix'.discovered = ix.discovered := by
    funext t
    rw [discovered, discovered, h.isRoot_eq, h.reaching_eq, h.out_eq, h.size_eq, h.roots_eq]
  funext t
  rw [discover, discover, hnormal, h.reaching_eq, hdiscovered]

theorem topologicalOrder_eq : ix'.topologicalOrder = ix.topologicalOrder := by
  funext nodes
  rw [topologicalOrder, topologicalOrder, h.hasEdge_eq]

theorem scopeOrder_eq : ix'.scopeOrder = ix.scopeOrder := by
  have hwithLoop : ix'.withLoop = ix.withLoop := by
    funext l nodes
    rw [withLoop, withLoop, h.loopChain_eq]
  have hvisible : ix'.visible = ix.visible := by
    funext chain ordered
    rw [visible, visible, h.parent_eq]
  funext t
  rw [scopeOrder, scopeOrder, withLoops, withLoops, h.loopChain_eq, hwithLoop, hvisible,
    h.topologicalOrder_eq, h.discover_eq]

theorem bodyOrder_eq : ix'.bodyOrder = ix.bodyOrder := by
  funext l
  rw [bodyOrder, bodyOrder, h.innerEnd_nodeAt, h.position?_eq, h.parent_eq, h.into_eq, h.size_eq,
    h.positions_eq, h.topologicalOrder_eq]

end SameShape

end Index

/-- Nodes whose entries are made alike make the same scope. -/
theorem collectScope_congr {first second : Nat → ArgumentMap → ScopeNode} {nodes : List Nat}
    (h : ∀ p ∈ nodes, first p = second p) (m : ArgumentMap) :
    collectScope first nodes m = collectScope second nodes m := by
  induction nodes generalizing m with
  | nil => rfl
  | cons p rest ih =>
      have hhead := h p List.mem_cons_self
      rw [collectScope, collectScope, hhead, ih fun q hq => h q (List.mem_cons_of_mem p hq)]

namespace Index

variable {ix ix' : Index} {p : Nat}

/-- An entry is made of the node by itself. -/
theorem entry_eq_of_bare (h : (ix'.nodeAt p).bare = (ix.nodeAt p).bare) :
    ix'.entry p = ix.entry p := by
  have hentry : ∀ ix : Index, ix.entry p = fun arguments viaException =>
      ⟨(ix.nodeAt p).bare.id, (ix.nodeAt p).bare.name, (ix.nodeAt p).bare.type, arguments,
        viaException⟩ := fun _ => rfl
  rw [hentry, hentry, h]

theorem exposed_eq_of_bare (h : (ix'.nodeAt p).bare = (ix.nodeAt p).bare) :
    (ix'.nodeAt p).exposed = (ix.nodeAt p).exposed := by
  have hexposed : ∀ n : Node, n.exposed = n.bare.exposed := fun _ => rfl
  rw [hexposed, h, ← hexposed]

theorem ownEntry_eq_of_bare (h : (ix'.nodeAt p).bare = (ix.nodeAt p).bare) :
    ix'.ownEntry p = ix.ownEntry p := by
  have hvariables : ∀ n : Node, n.loopVariables = n.bare.loopVariables := fun _ => rfl
  funext m
  rw [ownEntry, ownEntry, entry_eq_of_bare h, hvariables, h, ← hvariables]

/-- Nodes are reported with what they are by themselves. -/
theorem pickReferences_eq_of_bare (h : ix'.nodes.map Node.bare = ix.nodes.map Node.bare)
    (pick : Nat → List FieldReference) : ix'.pickReferences pick = ix.pickReferences pick := by
  have hsize : ix'.size = ix.size := by
    simpa [nodes, size] using congrArg List.length h
  have hid : ∀ i, (ix'.nodeAt i).id = (ix.nodeAt i).id :=
    nodeAt_eq (Node.map_eq_of_bare h fun _ => rfl)
  have hname : ∀ i, (ix'.nodeAt i).name = (ix.nodeAt i).name :=
    nodeAt_eq (Node.map_eq_of_bare h fun _ => rfl)
  simp only [pickReferences, positions, hsize, hid, hname]

/-- The scope of a node depends on the shape of the index and on the nodes that it is made of, as
they are by themselves. Those of its body count for a loop only. -/
theorem SameShape.scopeAt_eq (h : SameShape ix ix') (system : List Argument) (t : Nat)
    (hbare : ∀ p, p ∈ ix.scopeOrder t ∨ ((ix.nodeAt t).isLoop = true ∧ p ∈ ix.bodyOrder t) ∨ p = t →
      (ix'.nodeAt p).bare = (ix.nodeAt p).bare) :
    ix'.scopeAt system t = ix.scopeAt system t := by
  have hprevious : ∀ m,
      collectScope (ix'.previousEntry system (ix.loopChain t) (ix.discover t)) (ix.scopeOrder t) m =
        collectScope (ix.previousEntry system (ix.loopChain t) (ix.discover t)) (ix.scopeOrder t) m := by
    refine collectScope_congr fun p hp => funext fun m => ?_
    have hp := hbare p (Or.inl hp)
    rw [previousEntry, previousEntry, entry_eq_of_bare hp, exposed_eq_of_bare hp]
  have hown := ownEntry_eq_of_bare (hbare t (Or.inr (Or.inr rfl)))
  have htype : (ix'.nodeAt t).isLoop = (ix.nodeAt t).isLoop := by
    rw [Node.isLoop, Node.isLoop, h.type_nodeAt]
  by_cases hloop : (ix.nodeAt t).isLoop = true
  · have hinner : ∀ m, collectScope (ix'.innerEntry system) (ix.bodyOrder t) m =
        collectScope (ix.innerEntry system) (ix.bodyOrder t) m := by
      refine collectScope_congr fun p hp => funext fun m => ?_
      have hp := hbare p (Or.inr (Or.inl ⟨hloop, hp⟩))
      rw [innerEntry, innerEntry, entry_eq_of_bare hp, exposed_eq_of_bare hp]
    simp only [scopeAt, h.loopChain_eq, h.discover_eq, h.scopeOrder_eq, h.bodyOrder_eq, hprevious,
      hinner, hown, htype]
  · simp only [scopeAt, h.loopChain_eq, h.discover_eq, h.scopeOrder_eq, hprevious, htype, hloop,
      Bool.false_eq_true, ↓reduceIte]

end Index

end FlowScope
