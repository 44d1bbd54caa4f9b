import FlowScope.Proofs.Flattened
import FlowScope.Proofs.Renumbered
/-!
Scopes of rearranged workflows. Which edges a workflow declares, and of which kinds they are, does not
depend on the order of its lists, as long as no identifier is there twice: so its index is renumbered,
and the nodes in a scope and their marks are the same.
-/
namespace FlowScope

namespace Placed

variable {placed placed' : List Placed} {σ : Equiv.Perm Nat}

/-- Like members have renumbered enclosing positions. -/
theorem parentOf_renumbered (hposition : ∀ id, position? placed' id = (position? placed id).map σ)
    (hloop : ∀ l : Nat, placed'[σ l]?.any (·.node.isLoop) = placed[l]?.any (·.node.isLoop))
    {m m' : Member} (hm : m.Alike m') (p : Nat) :
    parentOf placed' (σ p) m' = (parentOf placed p m).map σ := by
  have hposition' : position? placed' = Option.map σ ∘ position? placed := funext hposition
  have hcounts : (fun l => l != σ p && placed'[l]?.any (·.node.isLoop)) ∘ σ =
      fun l => l != p && placed[l]?.any (·.node.isLoop) := by
    funext l
    have hne : (σ l != σ p) = (l != p) := by
      rw [Bool.eq_iff_iff, bne_iff_ne, bne_iff_ne]
      exact σ.injective.ne_iff
    rw [Function.comp_apply, hloop, hne]
  rw [parentOf, parentOf, hm.node.loop_eq, hm.container_eq, hposition', ← Option.map_bind,
    ← Option.map_bind, Option.filter_map, hcounts, Option.map_or]

end Placed

namespace Workflow

variable {w w' : Workflow} {σ : Equiv.Perm Nat}

section Listing

variable (hnodup : (w.members.map (·.node.id)).Nodup)
  (hnodup' : (w'.members.map (·.node.id)).Nodup)
  (hσ : ∀ i, Option.Rel Member.Alike w.members[i]? w'.members[σ i]?)

include hnodup hnodup' hσ

theorem lt_size_renumbered (p : Nat) : σ p < w'.index.size ↔ p < w.index.size := by
  have hnone : w'.members[σ p]? = none ↔ w.members[p]? = none := by
    have hrel := hσ p
    generalize w.members[p]? = m, w'.members[σ p]? = m' at hrel
    cases hrel <;> simp
  rw [size_index hnodup, size_index hnodup', ← Nat.not_le, ← Nat.not_le,
    ← List.getElem?_eq_none_iff, ← List.getElem?_eq_none_iff, hnone]

theorem alike_nodeAt (p : Nat) : (w.index.nodeAt p).Alike (w'.index.nodeAt (σ p)) := by
  have hrel := hσ p
  rw [nodeAt_index hnodup, nodeAt_index hnodup']
  generalize w.members[p]? = m, w'.members[σ p]? = m' at hrel
  cases hrel with
  | none => exact .refl _
  | some hm => exact hm.node

theorem parent_renumbered (p : Nat) : w'.index.parent (σ p) = (w.index.parent p).map σ := by
  have halike := alike_nodeAt hnodup hnodup' hσ
  have hposition := Index.position?_renumbered w.index_sound w'.index_sound
    (lt_size_renumbered hnodup hnodup' hσ) halike
  have hloop : ∀ l : Nat, w'.index.placed[σ l]?.any (·.node.isLoop) =
      w.index.placed[l]?.any (·.node.isLoop) := by
    intro l
    rw [Index.any_isLoop_eq, Index.any_isLoop_eq, (halike l).isLoop_eq]
  have hrel := hσ p
  rw [parent_index hnodup, parent_index hnodup']
  generalize w.members[p]? = m, w'.members[σ p]? = m' at hrel
  cases hrel with
  | none => rfl
  | some hm => exact Placed.parentOf_renumbered hposition hloop hm p

end Listing

/-- A rearranged workflow lists its nodes at renumbered positions. -/
theorem Rearranged.relisted (h : w.Rearranged w') (hnodup : (w.members.map (·.node.id)).Nodup)
    (hσ : ∀ i, Option.Rel Member.Alike w.members[i]? w'.members[σ i]?) :
    w.index.Relisted σ w'.index := by
  have hids := h.members.ids_perm
  have hnodup' := hids.nodup_iff.mp hnodup
  exact {
    wellFormed := w.index_wellFormed
    wellFormed' := w'.index_wellFormed
    size_eq := by
      rw [size_index hnodup, size_index hnodup']
      simpa using hids.length_eq.symm
    lt_iff := lt_size_renumbered hnodup hnodup' hσ
    alike := alike_nodeAt hnodup hnodup' hσ
    parent_eq := parent_renumbered hnodup hnodup' hσ }

/-- Between two nodes of one body the edges are those that the nodes name. -/
theorem hasEdge_iff_of_siblings {a l v : Nat} (ha : w.index.parent a = some l)
    (hv : w.index.parent v = some l) :
    w.index.hasEdge a v = true ↔ ∃ k, k ≠ EdgeKind.loopBody ∧ w.Declares a v k := by
  rw [Index.hasEdge_iff_leads]
  constructor
  · intro hleads
    obtain ⟨k, -, hmem⟩ := hleads
    have hdeclares := (w.mem_out_iff.mp hmem).1
    refine ⟨k, ?_, hdeclares⟩
    rintro rfl
    have hparent := Index.parent_of_mem_entries (w.beginsAt_iff.mp hdeclares.2)
    rw [hv, Option.some.injEq] at hparent
    exact (Index.parent_lt w.index_sound rfl ha).2 hparent
  · intro hnamed
    obtain ⟨k, -, hdeclares⟩ := hnamed
    exact w.leads_of_declares hdeclares

theorem mem_named_iff {n n' : Node} (hn : n.Alike n') (hedges : w.edges.Perm w'.edges) (k : EdgeKind)
    {id : NodeId} : id ∈ w'.named n' k ↔ id ∈ w.named n k := by
  cases k with
  | next => exact hn.next_perm.mem_iff.symm
  | branch => exact hn.branches_perm.mem_iff.symm
  | exception => exact hn.handlers_perm.mem_iff.symm
  | supplemental =>
      rw [named, named, hn.id_eq]
      exact ((hedges.filter _).map _).mem_iff.symm
  | loopBody => exact Iff.rfl

section Edges

variable {l u v : Nat} (h : w.index.Relisted σ w'.index) (hedges : w.edges.Perm w'.edges)

include h hedges

theorem declares_iff_of_ne {k : EdgeKind} (hk : k ≠ .loopBody) :
    w'.Declares (σ u) (σ v) k ↔ w.Declares u v k := by
  have hnamed : (w'.index.nodeAt (σ v)).id ∈ w'.named (w'.index.nodeAt (σ u)) k ↔
      (w.index.nodeAt v).id ∈ w.named (w.index.nodeAt u) k := by
    rw [(h.alike v).id_eq]
    exact mem_named_iff (h.alike u) hedges k
  cases k with
  | loopBody => exact absurd rfl hk
  | _ => exact and_congr h.onward_iff hnamed

/-- Bodies begin at the same nodes. Only edges between nodes of one body tell where, and these are named,
so that nothing has to be known of the edges into bodies yet. -/
theorem beginsAt_renumbered : w'.index.BeginsAt (σ l) (σ v) ↔ w.index.BeginsAt l v := by
  have hedge : ∀ a, w.index.parent a = some l → w.index.parent v = some l →
      (w'.index.hasEdge (σ a) (σ v) = false ↔ w.index.hasEdge a v = false) := by
    intro a ha hv
    rw [← Bool.not_eq_true, ← Bool.not_eq_true, hasEdge_iff_of_siblings ha hv,
      hasEdge_iff_of_siblings (h.parent_eq_some.mpr ha) (h.parent_eq_some.mpr hv)]
    exact not_congr (exists_congr fun k => and_congr_right fun hk => declares_iff_of_ne h hedges hk)
  rw [Index.BeginsAt, Index.BeginsAt, h.bodyStart?_eq, h.parent_eq_some, σ.surjective.forall,
    Option.map_eq_none_iff]
  refine or_congr (by simp) (and_congr_right fun _ => and_congr_right fun hv => forall_congr' fun a => ?_)
  rw [h.parent_eq_some]
  exact forall_congr' fun ha => hedge a ha hv

theorem declares_iff (k : EdgeKind) : w'.Declares (σ u) (σ v) k ↔ w.Declares u v k := by
  by_cases hk : k = .loopBody
  · subst hk
    rw [Declares, Declares, (h.alike u).isLoop_eq, beginsAt_renumbered h hedges]
  · exact declares_iff_of_ne h hedges hk

theorem renumbered : w.index.Renumbered σ w'.index where
  toRelisted := h
  mem_out := by
    intro u v k
    rw [mem_out_iff, mem_out_iff]
    refine and_congr (declares_iff h hedges k) (forall₂_congr fun j _ => ?_)
    exact not_congr (declares_iff h hedges j)

end Edges

/-- The order of the lists does not matter. When no identifier is there twice, a workflow with its nodes,
the nodes nested in others, its edges and the successors that its nodes name in another order has the same
nodes before every target, with the same marks, and the same nodes of the target's body. -/
theorem Rearranged.mem_scope_iff (h : w.Rearranged w')
    (hnodup : (w.members.map (·.node.id)).Nodup) (further : List Argument) (target : NodeId) :
    (∀ id mark, (id, mark) ∈ (w'.scope further target).marks ↔
        (id, mark) ∈ (w.scope further target).marks) ∧
      ∀ id, id ∈ (w'.scope further target).inner.map (·.id) ↔
        id ∈ (w.scope further target).inner.map (·.id) := by
  obtain ⟨σ, hσ⟩ := h.members.exists_renumbering
  have hrenumbered := renumbered (h.relisted hnodup hσ) h.edges
  rw [scope, scope, hrenumbered.position?_eq]
  cases w.index.position? target with
  | none => exact ⟨fun _ _ => Iff.rfl, fun _ => Iff.rfl⟩
  | some t =>
      exact ⟨fun _ _ => hrenumbered.mem_marks_scopeAt _ _, fun _ => hrenumbered.mem_map_id_inner _ _⟩

end Workflow

namespace RearrangedScopesWitness

/-- A loop that a node hands over to when it fails, with a condition in its body. -/
def workflow : Workflow where
  nodes := [
    { id := ⟨"1"⟩, type := .start, next := [⟨"2"⟩, ⟨"3"⟩] },
    { id := ⟨"2"⟩, type := .loop, innerEnd := some ⟨"5"⟩, inner := [
        { id := ⟨"4"⟩, type := .condition, config := { conditions := [{ next := [⟨"5"⟩, ⟨"2"⟩] }] } },
        { id := ⟨"5"⟩, type := .code }] },
    { id := ⟨"3"⟩, type := .llm, config := { failure := some ⟨none, [⟨"2"⟩, ⟨"6"⟩]⟩ } },
    { id := ⟨"6"⟩, type := .finish }]
  edges := [⟨⟨"2"⟩, ⟨"6"⟩, .supplemental⟩, ⟨⟨"3"⟩, ⟨"6"⟩, .supplemental⟩]

/-- The same workflow with every list in reverse. -/
def reversed : Workflow where
  nodes := [
    { id := ⟨"6"⟩, type := .finish },
    { id := ⟨"3"⟩, type := .llm, config := { failure := some ⟨none, [⟨"6"⟩, ⟨"2"⟩]⟩ } },
    { id := ⟨"2"⟩, type := .loop, innerEnd := some ⟨"5"⟩, inner := [
        { id := ⟨"5"⟩, type := .code },
        { id := ⟨"4"⟩, type := .condition, config := { conditions := [{ next := [⟨"2"⟩, ⟨"5"⟩] }] } }] },
    { id := ⟨"1"⟩, type := .start, next := [⟨"3"⟩, ⟨"2"⟩] }]
  edges := [⟨⟨"3"⟩, ⟨"6"⟩, .supplemental⟩, ⟨⟨"2"⟩, ⟨"6"⟩, .supplemental⟩]

theorem rearranged : workflow.Rearranged reversed where
  nodes := by
    have hfailure : NodeConfig.Rearranged { failure := some ⟨none, [⟨"2"⟩, ⟨"6"⟩]⟩ }
        { failure := some ⟨none, [⟨"6"⟩, ⟨"2"⟩]⟩ } :=
      ⟨rfl, .some ⟨rfl, .swap _ _ _⟩, .nil, .nil, .nil⟩
    have hconditions : NodeConfig.Rearranged { conditions := [{ next := [⟨"5"⟩, ⟨"2"⟩] }] }
        { conditions := [{ next := [⟨"2"⟩, ⟨"5"⟩] }] } :=
      ⟨rfl, .none, .cons ⟨rfl, .swap _ _ _⟩ .nil, .nil, .nil⟩
    refine .trans ?_ (.of_perm (List.reverse_perm reversed.nodes))
    refine .cons (.node (.swap _ _ _) (.refl _) .nil .nil) ?_
    refine .cons (.node .rfl (.refl _) ?_ .nil) ?_
    · refine .trans (.cons (.node .rfl hconditions .nil .nil) ?_) (.swap _ _ _)
      exact .refl _
    · refine .cons (.node .rfl hfailure .nil .nil) ?_
      exact .refl _
  edges := .swap _ _ _
  systemVariables_eq := rfl

theorem mem_scope_iff_reversed :
    workflow.Rearranged reversed ∧ (workflow.members.map (·.node.id)).Nodup ∧
      (workflow.scope [] ⟨"2"⟩).marks = [(⟨"1"⟩, false), (⟨"3"⟩, true)] ∧
      (⟨"3"⟩, true) ∈ (reversed.scope [] ⟨"2"⟩).marks ∧
      ⟨"4"⟩ ∈ (reversed.scope [] ⟨"2"⟩).inner.map (·.id) := by
  have hnodup : (workflow.members.map (·.node.id)).Nodup := by decide
  have hmarks : (workflow.scope [] ⟨"2"⟩).marks = [(⟨"1"⟩, false), (⟨"3"⟩, true)] := by decide
  obtain ⟨hprevious, hinner⟩ := rearranged.mem_scope_iff hnodup [] ⟨"2"⟩
  refine ⟨rearranged, hnodup, hmarks, (hprevious _ _).mpr ?_, (hinner _).mpr (by decide)⟩
  rw [hmarks]
  exact List.mem_cons_of_mem _ List.mem_cons_self

end RearrangedScopesWitness

end FlowScope
