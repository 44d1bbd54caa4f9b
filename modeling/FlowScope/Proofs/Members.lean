import FlowScope.Proofs.Listing
/-!
The nodes of a workflow in preorder, each with the node that it is nested in. Where no identifier is
there twice, the listing of an index is this list: nothing is left out, and the positions of the
containers stand for the nodes that they are.
-/
namespace FlowScope

/-- A node of a workflow, with the identifier of the node that it is nested in. -/
structure Member where
  node : Node
  container : Option NodeId

namespace Node

mutual

/-- What holds of a node when it holds of all that is nested in it, holds of every node. -/
theorem nestedInduction {P : Node → Prop} (step : ∀ n : Node, (∀ m ∈ n.nested, P m) → P n) :
    ∀ n, P n
  | ⟨_, _, _, _, _, _, inner, configInner, _, _⟩ => step _ fun m hm =>
      (List.mem_append.mp hm).elim (forall_mem_of_step step inner m)
        (forall_mem_of_step step configInner m)

theorem forall_mem_of_step {P : Node → Prop} (step : ∀ n : Node, (∀ m ∈ n.nested, P m) → P n) :
    ∀ (ns : List Node), ∀ m ∈ ns, P m
  | [], _, hm => absurd hm List.not_mem_nil
  | n :: rest, m, hm =>
      (List.mem_cons.mp hm).elim (fun heq => heq ▸ nestedInduction step n)
        (forall_mem_of_step step rest m)

end

mutual

/-- A node and all that is nested in it, in preorder. -/
def members (container : Option NodeId) : Node → List Member
  | n@⟨id, _, _, _, _, _, inner, configInner, _, _⟩ =>
      ⟨n, container⟩ :: (membersAll (some id) inner ++ membersAll (some id) configInner)

/-- Nodes one after the other, each with all that is nested in it. -/
def membersAll (container : Option NodeId) : List Node → List Member
  | [] => []
  | n :: rest => members container n ++ membersAll container rest

end

theorem membersAll_eq_flatMap (container : Option NodeId) (ns : List Node) :
    membersAll container ns = ns.flatMap (members container) := by
  induction ns with
  | nil => rw [membersAll, List.flatMap_nil]
  | cons n rest ih => rw [membersAll, List.flatMap_cons, ih]

theorem members_eq (container : Option NodeId) (n : Node) :
    n.members container = ⟨n, container⟩ :: n.nested.flatMap (members (some n.id)) := by
  obtain ⟨id, name, type, next, loop, config, inner, configInner, first, last⟩ := n
  rw [members, membersAll_eq_flatMap, membersAll_eq_flatMap, ← List.flatMap_append]
  rfl

/-- A member stands where its node was put, or it is nested in another member. -/
theorem container_of_mem_members {n : Node} {container : Option NodeId} {m : Member}
    (hm : m ∈ n.members container) : m.container = container ∨
      ∃ o ∈ n.members container, m.container = some o.node.id ∧ o.node.nested ≠ [] := by
  induction n using nestedInduction generalizing container m with | step n ih
  rw [members_eq] at hm ⊢
  rcases List.mem_cons.mp hm with rfl | hm
  · exact Or.inl rfl
  · obtain ⟨k, hk, hm⟩ := List.mem_flatMap.mp hm
    refine Or.inr ?_
    rcases ih k hk hm with hcontainer | ⟨o, ho, h⟩
    · exact ⟨_, List.mem_cons_self, hcontainer, List.ne_nil_of_mem hk⟩
    · exact ⟨o, List.mem_cons_of_mem _ (List.mem_flatMap.mpr ⟨k, hk, ho⟩), h⟩

end Node

/-- All nodes, the nested ones included, in preorder. -/
def Workflow.members (w : Workflow) : List Member := w.nodes.flatMap (Node.members none)

/-- The container of a member is a member that something is nested in. -/
theorem Workflow.container_of_mem_members (w : Workflow) {m : Member} (hm : m ∈ w.members) :
    m.container = none ∨ ∃ o ∈ w.members, m.container = some o.node.id ∧ o.node.nested ≠ [] := by
  obtain ⟨n, hn, hm⟩ := List.mem_flatMap.mp hm
  refine (Node.container_of_mem_members hm).imp_right ?_
  rintro ⟨o, ho, h⟩
  exact ⟨o, List.mem_flatMap.mpr ⟨n, hn, ho⟩, h⟩

namespace Placed

theorem addAll_eq_foldl (container : Option Nat) (ns : List Node) (placed : List Placed) :
    addAll container ns placed = ns.foldl (fun placed n => add container n placed) placed := by
  induction ns generalizing placed with
  | nil => rw [addAll, List.foldl_nil]
  | cons n rest ih => rw [addAll, List.foldl_cons, ih]

/-- A node whose identifier is listed is left out. -/
theorem add_eq_self (container : Option Nat) (n : Node) {placed : List Placed}
    (hold : placed.any (·.node.id == n.id) = true) : add container n placed = placed := by
  cases n
  rw [add, if_pos hold]

theorem add_eq_foldl (container : Option Nat) (n : Node) {placed : List Placed}
    (hnew : placed.any (·.node.id == n.id) = false) :
    add container n placed = n.nested.foldl (fun listed m => add (some placed.length) m listed)
      (placed ++ [⟨n, container⟩]) := by
  obtain ⟨id, name, type, next, loop, config, inner, configInner, first, last⟩ := n
  rw [add, if_neg (by simpa using hnew), addAll_eq_foldl, addAll_eq_foldl, ← List.foldl_append]
  rfl

/-- The identifier of the node at the position of a container. -/
def containerId (placed : List Placed) (container : Option Nat) : Option NodeId :=
  container.bind fun c => placed[c]?.map (·.node.id)

/-- A listed node, with the identifier of what it is nested in. -/
def member (placed : List Placed) (p : Placed) : Member :=
  ⟨p.node, containerId placed p.container⟩

def members (placed : List Placed) : List Member := placed.map (member placed)

theorem map_id_members (placed : List Placed) :
    (members placed).map (·.node.id) = placed.map (·.node.id) := by
  rw [members, List.map_map]
  rfl

theorem containerId_append {placed : List Placed} (more : List Placed) {container : Option Nat}
    (h : ∀ c ∈ container, c < placed.length) :
    containerId (placed ++ more) container = containerId placed container := by
  cases container with
  | none => rfl
  | some c => rw [containerId, containerId, Option.bind_some, Option.bind_some,
      List.getElem?_append_left (h c rfl)]

theorem Sound.members_append {placed : List Placed} (h : Sound placed) (more : List Placed) :
    members (placed ++ more) = members placed ++ more.map (member (placed ++ more)) := by
  rw [members, List.map_append, members]
  congr 1
  refine List.map_congr_left fun p hp => ?_
  obtain ⟨i, hi⟩ := List.mem_iff_getElem?.mp hp
  rw [member, member, containerId_append more fun c hc => Nat.lt_trans (h.container_lt hi c hc)
    (List.getElem?_eq_some_iff.mp hi).1]

/-- A listing in which certain members have been added after others. -/
structure Extends (placed : List Placed) (ms : List Member) (listed : List Placed) : Prop where
  sound : Sound listed
  kept : placed <+: listed
  members_eq : members listed = members placed ++ ms

namespace Extends

variable {placed listed : List Placed} {ms : List Member}

theorem refl (h : Sound placed) : Extends placed [] placed where
  sound := h
  kept := List.prefix_rfl
  members_eq := (List.append_nil _).symm

theorem push (h : Sound placed) {n : Node} {container : Option Nat}
    (hnew : placed.any (·.node.id == n.id) = false) (hcontainer : ∀ c ∈ container, c < placed.length) :
    Extends placed [⟨n, containerId placed container⟩] (placed ++ [⟨n, container⟩]) where
  sound := h.push hnew hcontainer
  kept := List.prefix_append _ _
  members_eq := by
    rw [h.members_append, List.map_singleton, member, containerId_append _ hcontainer]

theorem trans {more : List Member} {final : List Placed} (h : Extends placed ms listed)
    (hmore : Extends listed more final) : Extends placed (ms ++ more) final where
  sound := hmore.sound
  kept := h.kept.trans hmore.kept
  members_eq := by rw [hmore.members_eq, h.members_eq, List.append_assoc]

theorem containerId_eq (h : Extends placed ms listed) {container : Option Nat}
    (hcontainer : ∀ c ∈ container, c < placed.length) :
    containerId listed container = containerId placed container := by
  obtain ⟨more, rfl⟩ := h.kept
  exact containerId_append more hcontainer

/-- Distinct identifiers are still distinct when some of them have been listed. -/
theorem nodup (h : Extends placed ms listed) {more : List Member}
    (hnodup : ((members placed ++ (ms ++ more)).map (·.node.id)).Nodup) :
    ((members listed ++ more).map (·.node.id)).Nodup := by
  rwa [h.members_eq, List.append_assoc]

end Extends

/-- To list a node adds its members, if they are new. -/
def Addable (n : Node) : Prop :=
  ∀ (container : Option Nat) (placed : List Placed), Sound placed →
    (∀ c ∈ container, c < placed.length) →
    ((members placed ++ n.members (containerId placed container)).map (·.node.id)).Nodup →
      Extends placed (n.members (containerId placed container)) (add container n placed)

theorem extends_foldl_add {ns : List Node} (hadd : ∀ n ∈ ns, Addable n) (container : Option Nat)
    {placed : List Placed} (h : Sound placed) (hcontainer : ∀ c ∈ container, c < placed.length)
    (hnodup : ((members placed ++ ns.flatMap (Node.members (containerId placed container))).map
      (·.node.id)).Nodup) :
    Extends placed (ns.flatMap (Node.members (containerId placed container)))
      (ns.foldl (fun placed n => add container n placed) placed) := by
  induction ns generalizing placed with
  | nil => exact Extends.refl h
  | cons n rest ih =>
      rw [List.flatMap_cons] at hnodup ⊢
      have hhead := hadd n List.mem_cons_self container placed h hcontainer (by
        rw [← List.append_assoc] at hnodup
        exact hnodup.sublist ((List.sublist_append_left _ _).map _))
      have hid := hhead.containerId_eq hcontainer
      have hnodup := hhead.nodup hnodup
      rw [← hid] at hnodup
      have htail := ih (fun m hm => hadd m (List.mem_cons_of_mem n hm)) hhead.sound
        (fun c hc => Nat.lt_of_lt_of_le (hcontainer c hc) hhead.kept.length_le) hnodup
      rw [hid] at htail
      exact hhead.trans htail

theorem addable (n : Node) : Addable n := by
  induction n using Node.nestedInduction with | step n ih
  intro container placed h hcontainer hnodup
  rw [Node.members_eq, ← List.singleton_append] at hnodup ⊢
  have hnew : placed.any (·.node.id == n.id) = false := by
    rw [List.map_append, List.nodup_append', map_id_members, List.disjoint_right] at hnodup
    have hfree : n.id ∉ placed.map (·.node.id) := hnodup.2.2 (by simp)
    simpa using hfree
  have hpushed := Extends.push h hnew hcontainer
  have hid : containerId (placed ++ [⟨n, container⟩]) (some placed.length) = some n.id := by
    simp [containerId]
  have hnodup := hpushed.nodup hnodup
  rw [← hid] at hnodup
  have hnested := extends_foldl_add ih (some placed.length) hpushed.sound (by simp) hnodup
  rw [hid] at hnested
  rw [add_eq_foldl container n hnew]
  exact hpushed.trans hnested

end Placed

/-- The listing of a workflow without repeated identifiers consists of all its members. -/
theorem Workflow.members_index (w : Workflow) (h : (w.members.map (·.node.id)).Nodup) :
    Placed.members w.index.placed = w.members := by
  have hadded := Placed.extends_foldl_add (fun n _ => Placed.addable n) none Placed.Sound.nil
    (by simp) h
  rw [← Placed.addAll_eq_foldl] at hadded
  exact hadded.members_eq

theorem Workflow.size_index {w : Workflow} (hnodup : (w.members.map (·.node.id)).Nodup) :
    w.index.size = w.members.length := by
  rw [← w.members_index hnodup, Placed.members, List.length_map, Index.size]

theorem Workflow.nodeAt_index {w : Workflow} (hnodup : (w.members.map (·.node.id)).Nodup) (p : Nat) :
    w.index.nodeAt p = (w.members[p]?.map (·.node)).getD default := by
  rw [← w.members_index hnodup, Placed.members, List.getElem?_map, Option.map_map]
  rfl

end FlowScope
