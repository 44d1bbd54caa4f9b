import FlowScope.Proofs.BodyMembers
import FlowScope.Proofs.SameShape
/-!
The outline of a workflow: its nodes without their names, their arguments, their conditions and their
texts. Edges, bodies and orders are those of the outline. So what a scope holds depends on the contents
of the nodes in it and of its target only, and nodes out of scope may hold anything.
-/
namespace FlowScope

/-- What a configuration says about successors. -/
def NodeConfig.wiring (c : NodeConfig) : NodeConfig where
  failure := c.failure
  conditions := c.conditions.map fun branch => { next := branch.next }
  intents := c.intents.map fun branch => { next := branch.next }
  answers := c.answers.map fun branch => { next := branch.next }

namespace Node

mutual

/-- A node with what edges and bodies are made from, and so for all that is nested in it. -/
def outline : Node → Node
  | ⟨id, _, type, next, loop, config, inner, configInner, innerStart, innerEnd⟩ =>
      ⟨id, "", type, next, loop, config.wiring, outlineAll inner, outlineAll configInner, innerStart,
        innerEnd⟩

def outlineAll : List Node → List Node
  | [] => []
  | n :: rest => outline n :: outlineAll rest

end

theorem outlineAll_eq_map (ns : List Node) : outlineAll ns = ns.map outline := by
  induction ns with
  | nil => rw [outlineAll, List.map_nil]
  | cons n rest ih => rw [outlineAll, List.map_cons, ih]

theorem outline_eq (n : Node) : n.outline =
    { n with name := "", config := n.config.wiring, inner := n.inner.map outline
             configInner := n.configInner.map outline } := by
  obtain ⟨id, name, type, next, loop, config, inner, configInner, first, last⟩ := n
  rw [outline, outlineAll_eq_map, outlineAll_eq_map]

theorem isLoop_outline (n : Node) : n.outline.isLoop = n.isLoop := by
  rw [isLoop, isLoop, outline_eq]

theorem handlers_outline (n : Node) : n.outline.handlers = n.handlers := by
  rw [handlers, handlers, outline_eq, NodeConfig.wiring]

theorem branches_outline (n : Node) : n.outline.branches = n.branches := by
  rw [branches, branches, outline_eq]
  simp only [NodeConfig.wiring, List.flatMap_map]

end Node

namespace Placed

/-- A listed node, reduced to its outline. -/
def outline (p : Placed) : Placed := ⟨p.node.outline, p.container⟩

variable (placed : List Placed)

theorem any_id_map_outline (id : NodeId) :
    (placed.map outline).any (·.node.id == id) = placed.any (·.node.id == id) := by
  simp only [List.any_map, outline, Node.outline_eq, Function.comp_def]

mutual

/-- Outlines are listed as the nodes are. -/
theorem add_outline (container : Option Nat) : ∀ (n : Node) (placed : List Placed),
    add container n.outline (placed.map outline) = (add container n placed).map outline
  | ⟨id, name, type, next, loop, config, inner, configInner, first, last⟩, placed => by
      rw [Node.outline, add, add, any_id_map_outline, List.length_map]
      split
      · rfl
      · rw [← addAll_outline, ← addAll_outline, List.map_append, List.map_singleton, outline,
          Node.outline]

theorem addAll_outline (container : Option Nat) : ∀ (ns : List Node) (placed : List Placed),
    addAll container (Node.outlineAll ns) (placed.map outline) =
      (addAll container ns placed).map outline
  | [], placed => by rw [Node.outlineAll, addAll, addAll]
  | n :: rest, placed => by
      rw [Node.outlineAll, addAll, addAll, add_outline, addAll_outline]

end

theorem position?_map_outline : position? (placed.map outline) = position? placed := by
  apply position?_congr
  simp only [List.map_map, outline, Node.outline_eq, Function.comp_def]

theorem any_isLoop_map_outline (l : Nat) :
    (placed.map outline)[l]?.any (·.node.isLoop) = placed[l]?.any (·.node.isLoop) := by
  rw [List.getElem?_map, Option.any_map]
  simp only [outline, Node.isLoop_outline]

theorem parents_map_outline : parents (placed.map outline) = parents placed := by
  apply List.ext_getElem?
  intro i
  rw [parents, parents, List.getElem?_mapIdx, List.getElem?_mapIdx, List.getElem?_map, Option.map_map]
  simp only [Function.comp_def, outline, Node.outline_eq, position?_map_outline,
    any_isLoop_map_outline]

theorem enterBody_map_outline : enterBody (placed.map outline) = enterBody placed := by
  have hstart : ∀ l : Nat, (placed.map outline)[l]?.bind (·.node.innerStart) =
      placed[l]?.bind (·.node.innerStart) := by
    intro l
    rw [List.getElem?_map, Option.bind_map]
    simp only [outline, Node.outline_eq, Function.comp_def]
  funext parents table l
  simp only [enterBody, entries, any_isLoop_map_outline, position?_map_outline, hstart]

end Placed

namespace Workflow

/-- The workflow with the outlines of its nodes. -/
def outline (w : Workflow) : Workflow := { w with nodes := w.nodes.map Node.outline }

variable (w : Workflow)

theorem declared_outline (n : Node) : w.outline.declared n.outline = w.declared n := by
  rw [declared, declared, Node.handlers_outline, Node.branches_outline, Node.outline_eq, outline]

/-- The outline has the same index, but for what the nodes hold. -/
theorem index_outline :
    w.outline.index = { w.index with placed := w.index.placed.map Placed.outline } := by
  have hplaced : Placed.addAll none w.outline.nodes [] =
      (Placed.addAll none w.nodes []).map Placed.outline := by
    rw [outline, ← Node.outlineAll_eq_map, ← Placed.addAll_outline, List.map_nil]
  have hplain : ∀ (placed : List Placed) (parents : List (Option Nat)),
      (placed.map Placed.outline).mapIdx (fun i p =>
          Placed.links (placed.map Placed.outline) parents i p.node.loop (w.outline.declared p.node)) =
        placed.mapIdx fun i p => Placed.links placed parents i p.node.loop (w.declared p.node) := by
    intro placed parents
    apply List.ext_getElem?
    intro i
    rw [List.getElem?_mapIdx, List.getElem?_mapIdx, List.getElem?_map, Option.map_map]
    have hloop : ∀ p : Placed, p.outline.node.loop = p.node.loop := by
      intro p
      rw [Placed.outline, Node.outline_eq]
    have hdeclared : ∀ p : Placed, w.outline.declared p.outline.node = w.declared p.node :=
      fun p => w.declared_outline p.node
    simp only [Function.comp_def, hloop, hdeclared, Placed.links, Placed.position?_map_outline]
  simp only [index, hplaced, hplain, Placed.parents_map_outline, Placed.enterBody_map_outline,
    List.length_map]

/-- The outline has the same shape. -/
theorem sameShape_outline : w.index.SameShape w.outline.index := by
  have hnodes : w.outline.index.nodes = w.index.nodes.map Node.outline := by
    rw [index_outline, Index.nodes, Index.nodes, List.map_map, List.map_map]
    rfl
  constructor
  · simp only [hnodes, List.map_map, Function.comp_def, Node.outline_eq]
  · simp only [hnodes, List.map_map, Function.comp_def, Node.outline_eq]
  · simp only [hnodes, List.map_map, Function.comp_def, Node.outline_eq]
  · rw [index_outline]
  · rw [index_outline]
  · rw [index_outline]

end Workflow

/-- The node with an identifier. -/
def Index.get? (ix : Index) (id : NodeId) : Option Node := (ix.position? id).map ix.nodeAt

namespace Index.SameShape

variable {first second third : Index}

theorem symm (h : SameShape first second) : SameShape second first where
  ids_eq := h.ids_eq.symm
  types_eq := h.types_eq.symm
  ends_eq := h.ends_eq.symm
  parents_eq := h.parents_eq.symm
  outgoing_eq := h.outgoing_eq.symm
  incoming_eq := h.incoming_eq.symm

theorem trans (h : SameShape first second) (h' : SameShape second third) :
    SameShape first third where
  ids_eq := h'.ids_eq.trans h.ids_eq
  types_eq := h'.types_eq.trans h.types_eq
  ends_eq := h'.ends_eq.trans h.ends_eq
  parents_eq := h'.parents_eq.trans h.parents_eq
  outgoing_eq := h'.outgoing_eq.trans h.outgoing_eq
  incoming_eq := h'.incoming_eq.trans h.incoming_eq

end Index.SameShape

namespace Workflow

variable {w w' : Workflow}

theorem sameShape_of_outline_eq (h : w'.outline = w.outline) : w.index.SameShape w'.index := by
  have hback := w'.sameShape_outline.symm
  rw [h] at hback
  exact w.sameShape_outline.trans hback

/-- The nodes of a scope and its target, by position. -/
theorem mem_scope_of_position (further : List Argument) {target : NodeId} {t p : Nat}
    (ht : w.index.position? target = some t)
    (hp : p ∈ w.index.scopeOrder t ∨
      ((w.index.nodeAt t).isLoop = true ∧ p ∈ w.index.bodyOrder t) ∨ p = t) :
    w.index.position? (w.index.nodeAt p).id = some p ∧
      ((w.index.nodeAt p).id = target ∨ (w.index.nodeAt p).id ∈ (w.scope further target).previousIds ∨
        (w.index.nodeAt p).id ∈ (w.scope further target).inner.map (·.id)) := by
  have h := w.index_wellFormed
  rw [scope, ht]
  rcases hp with hp | ⟨hloop, hp⟩ | rfl
  · refine ⟨Index.position?_nodeAt h (Index.lt_of_mem_scopeOrder h hp), Or.inr (Or.inl ?_)⟩
    rw [Index.previousIds_scopeAt]
    exact List.mem_map_of_mem hp
  · refine ⟨Index.position?_nodeAt h (Index.lt_of_mem_bodyOrder h hp), Or.inr (Or.inr ?_)⟩
    exact (Index.mem_map_id_inner_iff _).mpr ⟨hloop, Or.inl ⟨p, hp, rfl⟩⟩
  · obtain ⟨hlt, hid⟩ := (Index.position?_eq_some_iff h.sound).mp ht
    exact ⟨Index.position?_nodeAt h hlt, Or.inl hid⟩

/-- What nodes out of scope hold does not matter. When a workflow is changed in nothing but the names,
arguments, conditions and texts of nodes, and neither in those of the target nor of a node in its scope,
the scope stays as it is, with all types, marks and keys. -/
theorem scope_eq_of_outline_eq (houtline : w'.outline = w.outline) (further : List Argument)
    (target : NodeId)
    (hkept : ∀ id, id = target ∨ id ∈ (w.scope further target).previousIds ∨
        id ∈ (w.scope further target).inner.map (·.id) →
      (w'.index.get? id).map Node.bare = (w.index.get? id).map Node.bare) :
    w'.scope further target = w.scope further target := by
  have hshape := sameShape_of_outline_eq houtline
  have hsystem : w'.allSystemVariables further = w.allSystemVariables further := by
    have hvariables : w'.outline.systemVariables = w.outline.systemVariables := by rw [houtline]
    rw [allSystemVariables, allSystemVariables, show w'.systemVariables = w.systemVariables from
      hvariables]
  cases ht : w.index.position? target with
  | none => rw [scope, scope, hshape.position?_eq, ht]
  | some t =>
      have hbare : ∀ p, p ∈ w.index.scopeOrder t ∨
          ((w.index.nodeAt t).isLoop = true ∧ p ∈ w.index.bodyOrder t) ∨ p = t →
            (w'.index.nodeAt p).bare = (w.index.nodeAt p).bare := by
        intro p hp
        obtain ⟨hposition, hmem⟩ := mem_scope_of_position further ht hp
        have hsame := hkept _ hmem
        rw [Index.get?, Index.get?, hshape.position?_eq, hposition] at hsame
        exact Option.some.inj hsame
      rw [scope, scope, hshape.position?_eq, ht, hsystem]
      exact hshape.scopeAt_eq _ t hbare

end Workflow

namespace OutlineWitness

/-- A loop with two nodes in its body, of which only the first leads to the end of the body. The second
has a name and an output of its own. -/
def workflow (name output : String) : Workflow where
  nodes := [
    { id := ⟨"1"⟩, type := .start, next := [⟨"2"⟩], config := {
        outputs := [.typed "rows" (.array .object)] } },
    { id := ⟨"2"⟩, type := .loop, innerEnd := some ⟨"3"⟩, inner := [
        { id := ⟨"3"⟩, type := .code, next := [⟨"4"⟩], config := {
            outputs := [.typed "sum" .integer] } },
        { id := ⟨"4"⟩, name, type := .condition, config := {
            outputs := [.typed output .string]
            conditions := [{ branchType := some output, next := [⟨"2"⟩] }] } }],
      config := { vars := [(Argument.typed "rest" .object).boundTo "1.rows"] } }]

theorem scope_eq_of_outline_eq_loop :
    (workflow "Check" "found").outline = (workflow "" "text").outline ∧
      ((workflow "" "text").scope [] ⟨"2"⟩).previousIds = [⟨"1"⟩] ∧
      ((workflow "" "text").scope [] ⟨"2"⟩).inner.map (·.id) = [⟨"3"⟩, ⟨"2"⟩] ∧
      (workflow "Check" "found").scope [] ⟨"2"⟩ = (workflow "" "text").scope [] ⟨"2"⟩ := by
  have houtline : (workflow "Check" "found").outline = (workflow "" "text").outline := rfl
  have hprevious : ((workflow "" "text").scope [] ⟨"2"⟩).previousIds = [⟨"1"⟩] := by decide
  have hinner : ((workflow "" "text").scope [] ⟨"2"⟩).inner.map (·.id) = [⟨"3"⟩, ⟨"2"⟩] := by decide
  refine ⟨houtline, hprevious, hinner, ?_⟩
  apply Workflow.scope_eq_of_outline_eq houtline
  intro id hid
  rw [hprevious, hinner] at hid
  have hcases : id = ⟨"1"⟩ ∨ id = ⟨"2"⟩ ∨ id = ⟨"3"⟩ := by
    simp only [List.mem_cons, List.not_mem_nil, or_false] at hid
    tauto
  rcases hcases with rfl | rfl | rfl
  · rfl
  · rfl
  · rfl

end OutlineWitness

end FlowScope
