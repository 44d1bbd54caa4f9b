import FlowScope.Proofs.Declared
import FlowScope.Proofs.Members
import FlowScope.Proofs.SameShape
/-!
Flat workflows. A node is in the body of a loop because it is nested there, or because it says so
itself. When all nodes are put side by side and each of them says which loop it is in, the scopes, the
reports and the dependents stay what they were, however deep the nodes were nested: the enclosing
positions are the same, and no other edge is left out on account of what a node says.
-/
namespace FlowScope

/-- The node as it stands in a flat workflow: nothing is nested in it, and it says which loop it is in. -/
def Member.flat (m : Member) : Node :=
  { m.node with loop := m.node.loop.or m.container, inner := [], configInner := [] }

namespace Workflow

variable (w : Workflow)

/-- The workflow with all its nodes side by side, in preorder. -/
def flat : Workflow := { w with nodes := w.members.map Member.flat }

/-- No identifier is that of two nodes, nodes are nested in loops only, and a nested node that says
which loop it is in names a loop other than itself. -/
structure ProperlyNested : Prop where
  ids_nodup : (w.members.map (·.node.id)).Nodup
  isLoop_of_nested : ∀ m ∈ w.members, m.node.nested ≠ [] → m.node.isLoop = true
  loop_isLoop : ∀ m ∈ w.members, m.container.isSome = true → ∀ l ∈ m.node.loop,
    l ≠ m.node.id ∧ ∃ o ∈ w.members, o.node.id = l ∧ o.node.isLoop = true

theorem members_flat : w.flat.members = w.members.map fun m => ⟨m.flat, none⟩ := by
  have hmembers : ∀ m : Member, m.flat.members none = [⟨m.flat, none⟩] := fun m => by
    rw [Node.members_eq]
    rfl
  rw [members, flat, List.flatMap_map]
  simp only [hmembers]
  exact List.map_eq_flatMap.symm

end Workflow

namespace Placed

variable {placed placed' : List Placed}

/-- The position of a container is that of its identifier. -/
theorem Sound.position?_containerId (h : Sound placed) {i : Nat} {p : Placed}
    (hp : placed[i]? = some p) :
    (containerId placed p.container).bind (position? placed) = p.container := by
  cases hcontainer : p.container with
  | none => rfl
  | some c =>
      have hlt : c < placed.length :=
        Nat.lt_trans (h.container_lt hp c hcontainer) (List.getElem?_eq_some_iff.mp hp).1
      rw [containerId, Option.bind_some, List.getElem?_eq_getElem hlt, Option.map_some,
        Option.bind_some, h.position?_eq_some_iff]
      exact ⟨_, List.getElem?_eq_getElem hlt, rfl⟩

/-- The enclosing position of a member: the one it says, or that of its container. -/
def parentOf (placed : List Placed) (i : Nat) (m : Member) : Option Nat :=
  ((m.node.loop.bind (position? placed)).filter fun l =>
    l != i && placed[l]?.any (·.node.isLoop)).or (m.container.bind (position? placed))

theorem Sound.parents_eq (h : Sound placed) :
    parents placed = (members placed).mapIdx (parentOf placed) := by
  apply List.ext_getElem?
  intro i
  rw [parents, List.getElem?_mapIdx, List.getElem?_mapIdx, members, List.getElem?_map]
  cases hp : placed[i]? with
  | none => rfl
  | some p => simp only [Option.map_some, parentOf, member, h.position?_containerId hp]

/-- A loop among the members is a loop in the listing. -/
theorem Sound.exists_position?_of_isLoop (h : Sound placed) {o : Member} (ho : o ∈ members placed)
    (hloop : o.node.isLoop = true) :
    ∃ l, position? placed o.node.id = some l ∧ placed[l]?.any (·.node.isLoop) = true := by
  obtain ⟨p, hp, rfl⟩ := List.mem_map.mp ho
  obtain ⟨l, hl⟩ := List.mem_iff_getElem?.mp hp
  refine ⟨l, h.position?_eq_some_iff.mpr ⟨p, hl, rfl⟩, ?_⟩
  rw [hl]
  exact hloop

/-- A container stands before what it contains. -/
theorem Sound.position?_container_lt (h : Sound placed) {i : Nat} {m : Member}
    (hm : (members placed)[i]? = some m) {c : NodeId} (hc : m.container = some c) {l : Nat}
    (hl : position? placed c = some l) : l < i := by
  rw [members, List.getElem?_map, Option.map_eq_some_iff] at hm
  obtain ⟨p, hp, rfl⟩ := hm
  have hcontainer := h.position?_containerId hp
  rw [show containerId placed p.container = some c from hc, Option.bind_some, hl] at hcontainer
  exact h.container_lt hp l hcontainer.symm

section SameNodes

variable (h : (placed'.map (·.node)).map Node.bare = (placed.map (·.node)).map Node.bare)

include h

theorem position?_eq_of_bare : position? placed' = position? placed :=
  position?_congr (Node.map_eq_of_bare h fun _ => rfl)

/-- Listings of the same nodes agree in what is read of them at a position. -/
theorem getElem?_map_eq_of_bare {α : Type} {f : Node → α} (hf : ∀ n, f n.bare = f n) (l : Nat) :
    placed'[l]?.map (fun p => f p.node) = placed[l]?.map (fun p => f p.node) := by
  have hread := congrArg (·[l]?) (Node.map_eq_of_bare h hf)
  simpa [Function.comp_def] using hread

theorem any_isLoop_eq_of_bare (l : Nat) :
    placed'[l]?.any (·.node.isLoop) = placed[l]?.any (·.node.isLoop) := by
  have hloop := getElem?_map_eq_of_bare h (f := Node.isLoop) (fun _ => rfl) l
  simpa [Option.any_map] using congrArg (Option.any fun isLoop => isLoop) hloop

theorem parentOf_eq_of_bare : parentOf placed' = parentOf placed := by
  funext i m
  simp only [parentOf, position?_eq_of_bare h, any_isLoop_eq_of_bare h]

theorem enterBody_eq_of_bare (parents : List (Option Nat)) :
    enterBody placed' parents = enterBody placed parents := by
  have hstart : ∀ l : Nat,
      placed'[l]?.bind (·.node.innerStart) = placed[l]?.bind (·.node.innerStart) := by
    intro l
    have hstart := getElem?_map_eq_of_bare h (f := Node.innerStart) (fun _ => rfl) l
    simpa [Option.bind_map, Function.comp_def] using congrArg (Option.bind · fun start => start) hstart
  funext table l
  simp only [enterBody, entries, any_isLoop_eq_of_bare h, position?_eq_of_bare h, hstart]

end SameNodes

/-- Which links a node gets depends on the loop that it says it is in only as far as that differs
from the enclosing position. -/
theorem links_congr (hposition : position? placed' = position? placed) {parents : List (Option Nat)}
    {i : Nat} {loop loop' : Option NodeId}
    (h : ∀ id t, position? placed id = some t →
      (some id == loop' || some t == parents[i]?.join) = (some id == loop || some t == parents[i]?.join))
    (declared : List (NodeId × EdgeKind)) :
    links placed' parents i loop' declared = links placed parents i loop declared := by
  rw [links, links, hposition]
  congr
  funext links name
  obtain ⟨id, kind⟩ := name
  cases hid : position? placed id with
  | none => simp only [hid]
  | some t => simp only [hid, h id t hid]

end Placed

namespace Workflow

variable {w : Workflow}

/-- A member is enclosed by the same node when it says itself what it is nested in. -/
theorem ProperlyNested.parentOf_flat (h : w.ProperlyNested) {i : Nat} {m : Member}
    (hm : w.members[i]? = some m) :
    Placed.parentOf w.index.placed i ⟨m.flat, none⟩ = Placed.parentOf w.index.placed i m := by
  have hmem := List.mem_of_getElem? hm
  have hmembers := w.members_index h.ids_nodup
  rw [← hmembers] at hm
  cases hcontainer : m.container with
  | none => simp [Placed.parentOf, Member.flat, hcontainer]
  | some c =>
      cases hloop : m.node.loop with
      | none =>
          -- What the node says now is its container, which is a loop listed before it.
          rcases w.container_of_mem_members hmem with hnone | ⟨o, ho, hc, hnested⟩
          · simp [hnone] at hcontainer
          obtain rfl : c = o.node.id := Option.some.inj (hcontainer.symm.trans hc)
          obtain ⟨l, hl, hisLoop⟩ := w.index_sound.exists_position?_of_isLoop (hmembers ▸ ho)
            (h.isLoop_of_nested o ho hnested)
          have hlt := w.index_sound.position?_container_lt hm hcontainer hl
          simp [Placed.parentOf, Member.flat, hcontainer, hloop, hl, hisLoop, Nat.ne_of_lt hlt]
      | some named =>
          -- The node is in the body of the loop that it names, whatever its container is.
          obtain ⟨hne, o, ho, rfl, hisLoop⟩ := h.loop_isLoop m hmem (by simp [hcontainer]) named hloop
          obtain ⟨l, hl, hisLoop⟩ := w.index_sound.exists_position?_of_isLoop (hmembers ▸ ho) hisLoop
          have hother : l ≠ i := by
            rintro rfl
            obtain ⟨p, hp, hid⟩ := w.index_sound.position?_eq_some_iff.mp hl
            rw [Placed.members, List.getElem?_map, hp] at hm
            obtain rfl := Option.some.inj hm
            exact hne hid.symm
          simp [Placed.parentOf, Member.flat, hcontainer, hloop, hl, Option.filter, hisLoop, hother]

/-- The flat workflow has the same nodes in the same order. -/
theorem ProperlyNested.members_index_flat (h : w.ProperlyNested) :
    Placed.members w.flat.index.placed = w.members.map fun m => ⟨m.flat, none⟩ := by
  rw [← w.members_flat]
  apply w.flat.members_index
  rw [w.members_flat, List.map_map]
  exact h.ids_nodup

theorem ProperlyNested.map_bare_flat (h : w.ProperlyNested) :
    w.flat.index.nodes.map Node.bare = w.index.nodes.map Node.bare := by
  have hbare : ∀ ix : Index, ix.nodes.map Node.bare = (Placed.members ix.placed).map (·.node.bare) := by
    intro ix
    rw [Index.nodes, List.map_map, Placed.members, List.map_map]
    rfl
  rw [hbare, hbare, h.members_index_flat, w.members_index h.ids_nodup, List.map_map]
  rfl

theorem parents_index (w : Workflow) : w.index.parents =
    (Placed.members w.index.placed).mapIdx (Placed.parentOf w.index.placed) :=
  w.index_sound.parents_eq

theorem parent_index (hnodup : (w.members.map (·.node.id)).Nodup) (p : Nat) :
    w.index.parent p = w.members[p]?.bind (Placed.parentOf w.index.placed p) := by
  rw [Index.parent, parents_index, w.members_index hnodup, List.getElem?_mapIdx]
  cases w.members[p]? <;> rfl

theorem plainTable_eq (w : Workflow) : w.plainTable =
    (Placed.members w.index.placed).mapIdx fun i m =>
      Placed.links w.index.placed w.index.parents i m.node.loop (w.declared m.node) := by
  apply List.ext_getElem?
  intro i
  rw [plainTable, List.getElem?_mapIdx, List.getElem?_mapIdx, Placed.members, List.getElem?_map]
  cases w.index.placed[i]? <;> rfl

theorem ProperlyNested.parents_flat (h : w.ProperlyNested) :
    w.flat.index.parents = w.index.parents := by
  rw [parents_index, parents_index, h.members_index_flat, w.members_index h.ids_nodup,
    Placed.parentOf_eq_of_bare h.map_bare_flat]
  apply List.ext_getElem?
  intro i
  rw [List.getElem?_mapIdx, List.getElem?_mapIdx, List.getElem?_map]
  cases hm : w.members[i]? with
  | none => rfl
  | some m => simp only [Option.map_some, h.parentOf_flat hm]

/-- An edge that is left out because it leads to the container is left out because it leads to the
enclosing node. -/
theorem ProperlyNested.guard_flat (h : w.ProperlyNested) {i : Nat} {m : Member}
    (hm : w.members[i]? = some m) {id : NodeId} {t : Nat} (ht : w.index.position? id = some t) :
    (some id == m.flat.loop || some t == w.index.parent i) =
      (some id == m.node.loop || some t == w.index.parent i) := by
  have hparent : w.index.parent i = Placed.parentOf w.index.placed i m := by
    rw [parent_index h.ids_nodup, hm, Option.bind_some]
  cases hloop : m.node.loop with
  | some named => simp [Member.flat, hloop]
  | none =>
      have hcontainer : w.index.parent i = m.container.bind w.index.position? := by
        rw [hparent, Placed.parentOf, hloop]
        rfl
      have hsame : some id = m.container → some t = w.index.parent i := by
        intro hid
        rw [hcontainer, ← hid, Option.bind_some, ht]
      rw [Bool.eq_iff_iff]
      simpa [Member.flat, hloop] using hsame

theorem ProperlyNested.plainTable_flat (h : w.ProperlyNested) : w.flat.plainTable = w.plainTable := by
  rw [plainTable_eq, plainTable_eq, h.members_index_flat, w.members_index h.ids_nodup, h.parents_flat]
  apply List.ext_getElem?
  intro i
  rw [List.getElem?_mapIdx, List.getElem?_mapIdx, List.getElem?_map]
  cases hm : w.members[i]? with
  | none => rfl
  | some m =>
      simp only [Option.map_some]
      congr 1
      exact Placed.links_congr (Placed.position?_eq_of_bare h.map_bare_flat)
        (fun id t ht => h.guard_flat hm ht) _

theorem ProperlyNested.outgoing_flat (h : w.ProperlyNested) :
    w.flat.index.outgoing = w.index.outgoing := by
  have houtgoing : ∀ w : Workflow, w.index.outgoing = (List.range w.index.placed.length).foldl
      (Placed.enterBody w.index.placed w.index.parents) w.plainTable := fun _ => rfl
  have hlength : w.flat.index.placed.length = w.index.placed.length := by
    simpa [Index.nodes] using congrArg List.length h.map_bare_flat
  rw [houtgoing, houtgoing, hlength, h.parents_flat, h.plainTable_flat,
    Placed.enterBody_eq_of_bare h.map_bare_flat]

theorem ProperlyNested.sameShape_flat (h : w.ProperlyNested) : w.index.SameShape w.flat.index := by
  refine .of_bare h.map_bare_flat h.parents_flat h.outgoing_flat ?_
  have hincoming : ∀ w : Workflow, w.index.incoming =
      (List.range w.index.nodes.length).map (Link.into w.index.outgoing) := fun _ => by
    rw [Index.nodes, List.length_map]
    rfl
  have hlength := congrArg List.length h.map_bare_flat
  rw [List.length_map, List.length_map] at hlength
  rw [hincoming, hincoming, hlength, h.outgoing_flat]

/-- Every scope, the report and the dependents are the same when a properly nested workflow is made
flat. -/
theorem ProperlyNested.answers_flat (h : w.ProperlyNested) :
    (∀ further target, w.flat.scope further target = w.scope further target) ∧
      (∀ further, w.flat.check further = w.check further) ∧
      ∀ source, w.flat.dependents source = w.dependents source := by
  have hshape := h.sameShape_flat
  have hbare : ∀ i, (w.flat.index.nodeAt i).bare = (w.index.nodeAt i).bare :=
    Index.nodeAt_eq h.map_bare_flat
  have hscope : ∀ system t, w.flat.index.scopeAt system t = w.index.scopeAt system t :=
    fun system t => hshape.scopeAt_eq system t fun p _ => hbare p
  have hreferences : ∀ i, (w.flat.index.nodeAt i).references = (w.index.nodeAt i).references :=
    Index.nodeAt_eq (Node.map_eq_of_bare h.map_bare_flat fun _ => rfl)
  refine ⟨fun further target => ?_, fun further => ?_, fun source => ?_⟩
  · rw [scope, scope, hshape.position?_eq]
    cases w.index.position? target with
    | none => rfl
    | some t => exact hscope _ t
  · simp only [check, Node.dangling, hreferences, hscope]
    exact Index.pickReferences_eq_of_bare h.map_bare_flat _
  · simp only [dependents, Node.referencesTo, hreferences]
    exact Index.pickReferences_eq_of_bare h.map_bare_flat _

end Workflow

namespace FlattenedWitness

/-- A loop in the body of another, one nested beside the configuration and one inside it. A node that is
nested in the inner loop says that it is in the outer one. -/
def workflow : Workflow where
  nodes := [
    { id := ⟨"1"⟩, type := .start, next := [⟨"2"⟩] },
    { id := ⟨"2"⟩, type := .loop, next := [⟨"7"⟩], inner := [
        { id := ⟨"3"⟩, type := .code, next := [⟨"2"⟩, ⟨"4"⟩] },
        { id := ⟨"4"⟩, type := .loop, configInner := [
            { id := ⟨"5"⟩, type := .code, next := [⟨"6"⟩] },
            { id := ⟨"6"⟩, type := .code, loop := some ⟨"2"⟩, next := [⟨"2"⟩, ⟨"4"⟩] }] }] },
    { id := ⟨"7"⟩, type := .finish, config := { content := some "Read \x7b\x7b 6.text \x7d\x7d" } }]

theorem answers_flat_nested :
    workflow.ProperlyNested ∧ workflow.flat.nodes.map (·.loop) =
        [none, none, some ⟨"2"⟩, some ⟨"2"⟩, some ⟨"4"⟩, some ⟨"2"⟩, none] ∧
      (workflow.flat.scope [] ⟨"5"⟩).previousIds = (workflow.scope [] ⟨"5"⟩).previousIds ∧
      workflow.flat.check [] = workflow.check [] ∧ (workflow.check []).map (·.node) = [⟨"7"⟩] := by
  have h : workflow.ProperlyNested := ⟨by decide, by decide, by decide⟩
  obtain ⟨hscope, hcheck, -⟩ := h.answers_flat
  exact ⟨h, by decide, by rw [hscope], hcheck [], by decide⟩

end FlattenedWitness

end FlowScope
