import FlowScope.Proofs.EnclosingLoops
/-!
What an index lists. It has the nodes of a workflow in preorder, the nodes nested in a node, in either
of the two places for them, right after it. A node whose identifier is there already is left out with
all that is nested in it, wherever it stands, be it inside the node with the same identifier. So
identifiers and positions determine each other, and what the tables of an index hold are positions of
the listing.
-/
namespace FlowScope

/-- What is nested directly in a member, in both places one after the other. -/
def Member.nested (m : Member) : List Member := m.node.nested.map (⟨·, some m.node.id⟩)

/-- `Lists seen pending listed` says that of the nodes `pending`, and of what is nested in them, those
in `listed` are listed when the identifiers `seen` have been listed before. -/
inductive Lists : List NodeId → List Member → List Member → Prop
  | done (seen : List NodeId) : Lists seen [] []
  /-- The identifier is listed already: the node is left out, and nothing that is nested in it is
  looked at. -/
  | old {m : Member} {seen : List NodeId} {rest listed : List Member} :
      m.node.id ∈ seen → Lists seen rest listed → Lists seen (m :: rest) listed
  /-- The node is listed, and what is nested in it comes before all that follows it. -/
  | new {m : Member} {seen : List NodeId} {rest listed : List Member} :
      m.node.id ∉ seen → Lists (seen ++ [m.node.id]) (m.nested ++ rest) listed →
        Lists seen (m :: rest) (m :: listed)

namespace Lists

variable {seen : List NodeId} {pending : List Member}

theorem unique {first second : List Member} (hfirst : Lists seen pending first)
    (hsecond : Lists seen pending second) : first = second := by
  induction hfirst generalizing second with
  | done =>
      cases hsecond with
      | done => rfl
  | old hold _ ih =>
      cases hsecond with
      | old _ h => exact ih h
      | new hnew _ => exact absurd hold hnew
  | new hnew _ ih =>
      cases hsecond with
      | old hold _ => exact absurd hold hnew
      | new _ h => rw [ih h]

/-- What is listed is in the order of all nodes in preorder. -/
theorem sublist {listed : List Member} (h : Lists seen pending listed) :
    listed.Sublist (pending.flatMap fun m => m.node.members m.container) := by
  induction h with
  | done => exact List.Sublist.slnil
  | old _ _ ih =>
      rw [List.flatMap_cons]
      exact ih.trans (List.sublist_append_right _ _)
  | new _ _ ih =>
      rw [List.flatMap_cons, Node.members_eq, List.cons_append]
      rw [Member.nested, List.flatMap_append, List.flatMap_map] at ih
      exact ih.cons_cons _

end Lists

namespace Placed

variable {placed middle final : List Placed} {container : Option Nat}

/-- To look at the nodes `pending` makes one listing of another: certain members are added, which are
those that are listed of `pending`, whatever follows. -/
def Adds (placed : List Placed) (pending : List Member) (final : List Placed) : Prop :=
  ∃ ms, Extends placed ms final ∧ ∀ rest listed,
    Lists (final.map (·.node.id)) rest listed →
      Lists (placed.map (·.node.id)) (pending ++ rest) (ms ++ listed)

theorem Adds.refl (h : Sound placed) : Adds placed [] placed :=
  ⟨[], Extends.refl h, fun _ _ hrest => hrest⟩

theorem Adds.trans {first second : List Member} (hfirst : Adds placed first middle)
    (hsecond : Adds middle second final) : Adds placed (first ++ second) final := by
  obtain ⟨ms, hms, hlists⟩ := hfirst
  obtain ⟨more, hmore, hfollows⟩ := hsecond
  refine ⟨ms ++ more, hms.trans hmore, fun rest listed hrest => ?_⟩
  rw [List.append_assoc, List.append_assoc]
  exact hlists _ _ (hfollows rest listed hrest)

theorem Adds.old (h : Sound placed) {m : Member} (hold : m.node.id ∈ placed.map (·.node.id)) :
    Adds placed [m] placed :=
  ⟨[], Extends.refl h, fun _ _ hrest => Lists.old hold hrest⟩

/-- A node that is listed, and what is nested in it. -/
theorem Adds.new {n : Node} (h : Sound placed) (hnew : placed.any (·.node.id == n.id) = false)
    (hcontainer : ∀ c ∈ container, c < placed.length)
    (hnested : Adds (placed ++ [⟨n, container⟩]) (n.nested.map (⟨·, some n.id⟩)) final) :
    Adds placed [⟨n, containerId placed container⟩] final := by
  obtain ⟨ms, hms, hlists⟩ := hnested
  refine ⟨_, (Extends.push h hnew hcontainer).trans hms, fun rest listed hrest => ?_⟩
  have hids := hlists rest listed hrest
  rw [List.map_append, List.map_singleton] at hids
  exact Lists.new (by simpa using hnew) hids

/-- Nodes one after the other, when each of them is listed as it should be. -/
theorem adds_foldl_add {ns : List Node}
    (hadd : ∀ n ∈ ns, ∀ (container : Option Nat) (placed : List Placed), Sound placed →
      (∀ c ∈ container, c < placed.length) →
        Adds placed [⟨n, containerId placed container⟩] (add container n placed))
    (container : Option Nat) (h : Sound placed) (hcontainer : ∀ c ∈ container, c < placed.length) :
    Adds placed (ns.map (⟨·, containerId placed container⟩))
      (ns.foldl (fun placed n => add container n placed) placed) := by
  induction ns generalizing placed with
  | nil => exact Adds.refl h
  | cons n rest ih =>
      obtain ⟨ms, hms, hlists⟩ := hadd n List.mem_cons_self container placed h hcontainer
      have htail := ih (fun m hm => hadd m (List.mem_cons_of_mem n hm)) hms.sound
        fun c hc => Nat.lt_of_lt_of_le (hcontainer c hc) hms.kept.length_le
      rw [hms.containerId_eq hcontainer] at htail
      exact Adds.trans ⟨ms, hms, hlists⟩ htail

theorem adds_add (n : Node) : ∀ (container : Option Nat) (placed : List Placed), Sound placed →
    (∀ c ∈ container, c < placed.length) →
      Adds placed [⟨n, containerId placed container⟩] (add container n placed) := by
  induction n using Node.nestedInduction with | step n ih
  intro container placed h hcontainer
  cases hlisted : placed.any (·.node.id == n.id) with
  | true =>
      rw [add_eq_self container n hlisted]
      exact Adds.old h (by simpa using hlisted)
  | false =>
      have hpushed := h.push hlisted hcontainer
      have hnested := adds_foldl_add ih (some placed.length) hpushed (by simp)
      have hid : containerId (placed ++ [⟨n, container⟩]) (some placed.length) = some n.id := by
        simp [containerId]
      rw [hid] at hnested
      rw [add_eq_foldl container n hlisted]
      exact Adds.new h hlisted hcontainer hnested

end Placed

/-- The tables of an index belong to its listing: identifiers and positions determine each other,
there is an entry for every position, and what the entries hold are positions. -/
structure Index.Aligned (ix : Index) : Prop where
  ids_nodup : (ix.nodes.map (·.id)).Nodup
  position?_eq_some_iff : ∀ id i, ix.position? id = some i ↔ ix.nodes[i]?.map (·.id) = some id
  length_nodes : ix.nodes.length = ix.size
  length_parents : ix.parents.length = ix.size
  length_outgoing : ix.outgoing.length = ix.size
  length_incoming : ix.incoming.length = ix.size
  container_lt : ∀ i c, ix.container? i = some c → c < i ∧ i < ix.size
  parent_lt : ∀ i l, ix.parent i = some l → l < ix.size ∧ l ≠ i
  out_lt : ∀ u, ∀ l ∈ ix.out u, l.node < ix.size
  into_lt : ∀ v, ∀ l ∈ ix.into v, l.node < ix.size

namespace Workflow

variable (w : Workflow)

theorem index_aligned : w.index.Aligned where
  ids_nodup := w.nodup_nodes_id
  position?_eq_some_iff id i := by
    rw [Index.position?, w.index_sound.position?_eq_some_iff, Index.nodes, List.getElem?_map,
      Option.map_map, Option.map_eq_some_iff]
    rfl
  length_nodes := List.length_map _
  length_parents := List.length_mapIdx
  length_outgoing := by
    rw [w.outgoing_eq_map, List.length_map, Index.positions, List.length_range]
  length_incoming := by
    rw [w.incoming_eq_map, List.length_map, List.length_range]
  container_lt i c hc := by
    obtain ⟨p, hp, hcontainer⟩ := Option.bind_eq_some_iff.mp hc
    exact ⟨w.index_sound.container_lt hp c hcontainer, (List.getElem?_eq_some_iff.mp hp).1⟩
  parent_lt _ _ hl := Index.parent_lt w.index_sound rfl hl
  out_lt _ _ hl := (w.index_wellFormed.out_lt hl).2
  into_lt _ _ hl := (w.index_wellFormed.out_lt (w.index_wellFormed.mem_into.mp hl)).1

/-- The listing of an index is what is listed of the nodes of the workflow when nothing has been seen:
nodes in preorder, without those whose identifiers are there already and all that is nested in these.
Every node is listed with the node that it is nested in, and the tables of the index belong to the
listing. -/
theorem index_in_preorder :
    (∀ listed, Lists [] (w.nodes.map (⟨·, none⟩)) listed ↔
      listed = Placed.members w.index.placed) ∧
    (Placed.members w.index.placed).Sublist w.members ∧ w.index.Aligned := by
  obtain ⟨ms, hms, hlists⟩ := Placed.adds_foldl_add (fun n (_ : n ∈ w.nodes) => Placed.adds_add n)
    none Placed.Sound.nil (by simp)
  rw [← Placed.addAll_eq_foldl] at hms hlists
  have hmembers : Placed.members w.index.placed = ms := hms.members_eq
  have hlisted : Lists [] (w.nodes.map (⟨·, none⟩)) ms := by
    have h := hlists [] [] (.done _)
    rwa [List.append_nil, List.append_nil] at h
  rw [hmembers]
  refine ⟨fun listed => ⟨fun h => h.unique hlisted, fun h => h ▸ hlisted⟩, ?_, w.index_aligned⟩
  have hsublist := hlisted.sublist
  rw [List.flatMap_map] at hsublist
  exact hsublist

end Workflow

namespace PreorderListingWitness

/-- A loop with nodes in both places, one of them with the identifier of the loop itself and a node
nested in it; then a node with the identifier of one in the loop, and one that has been left out. -/
def workflow : Workflow where
  nodes := [
    { id := ⟨"1"⟩, type := .loop
      inner := [
        { id := ⟨"2"⟩, type := .code },
        { id := ⟨"1"⟩, type := .loop, inner := [{ id := ⟨"3"⟩, type := .code }] }]
      configInner := [{ id := ⟨"4"⟩, type := .code }] },
    { id := ⟨"2"⟩, type := .loop, inner := [{ id := ⟨"5"⟩, type := .code }] },
    { id := ⟨"3"⟩, type := .code }]

theorem index_in_preorder_repeated :
    ∃ listed, Lists [] (workflow.nodes.map (⟨·, none⟩)) listed ∧
      listed.map (fun m => (m.node.id, m.container)) =
        [(⟨"1"⟩, none), (⟨"2"⟩, some ⟨"1"⟩), (⟨"4"⟩, some ⟨"1"⟩), (⟨"3"⟩, none)] := by
  refine ⟨Placed.members workflow.index.placed, ?_, by decide +kernel⟩
  exact (workflow.index_in_preorder.1 _).mpr rfl

end PreorderListingWitness

end FlowScope
