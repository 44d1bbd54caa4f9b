import FlowScope.Proofs.ScopeMembers
/-!
Which nodes of its own body a loop sees: the end node of the body and what leads to it inside the body,
and last the loop itself, if it has variables.
-/
namespace FlowScope

open Relation

namespace Index

/-- The end node that a loop names, if that is directly in its body. -/
def bodyEnd? (ix : Index) (l : Nat) : Option Nat :=
  ((ix.nodeAt l).innerEnd.bind ix.position?).filter fun e => ix.parent e == some l

/-- An edge that leaves a node directly in the body of `l`. -/
def LeadsFromBody (ix : Index) (l u v : Nat) : Prop :=
  ix.parent u = some l ∧ ix.Leads (fun _ => true) u v

/-- An edge between two nodes directly in the body of `l`. -/
def LeadsInBody (ix : Index) (l u v : Nat) : Prop :=
  ix.parent u = some l ∧ ix.parent v = some l ∧ ix.Leads (fun _ => true) u v

variable {ix : Index} {e l p t : Nat}

theorem parent_of_bodyEnd? (he : ix.bodyEnd? l = some e) : ix.parent e = some l := by
  rw [bodyEnd?, Option.filter_eq_some_iff] at he
  simpa using he.2

theorem parent_of_leadsFromBody (he : ix.parent e = some l)
    (hway : ReflTransGen (ix.LeadsFromBody l) p e) : ix.parent p = some l := by
  rcases ReflTransGen.cases_head hway with heq | ⟨q, hstep, -⟩
  · exact heq ▸ he
  · exact hstep.1

/-- A way that ends in a body and leaves only nodes of the body stays in the body. -/
theorem reflTransGen_leadsFromBody_iff (he : ix.parent e = some l) :
    ReflTransGen (ix.LeadsFromBody l) p e ↔ ReflTransGen (ix.LeadsInBody l) p e := by
  constructor
  · intro hway
    induction hway using ReflTransGen.head_induction_on with
    | refl => exact .refl
    | head hstep hrest ih =>
        exact .head ⟨hstep.1, parent_of_leadsFromBody he hrest, hstep.2⟩ ih
  · intro hway
    exact ReflTransGen.mono (fun u v hstep => ⟨hstep.1, hstep.2.2⟩) p e hway

/-- Seen from its loop are the nodes of a body that lead to its end node without leaving the body. -/
theorem mem_bodyOrder_iff (h : ix.WellFormed) :
    p ∈ ix.bodyOrder l ↔
      ∃ e, ix.bodyEnd? l = some e ∧ ReflTransGen (ix.LeadsFromBody l) p e := by
  have hnamed : ((ix.nodeAt l).innerEnd.bind ix.position?).filter (fun e => ix.parent e == some l) =
      ix.bodyEnd? l := rfl
  rw [bodyOrder, hnamed]
  cases hend : ix.bodyEnd? l with
  | none => simp
  | some e =>
      have hparent := parent_of_bodyEnd? hend
      have hback : ∀ u v, u ∈ (ix.into v).map (·.node) ↔ ix.Leads (fun _ => true) u v := by
        intro u v
        rw [← mem_heads_into_iff h, heads, List.filter_true]
      have hinto : ∀ v, ∀ u ∈ (ix.into v).map (·.node), u < ix.size := by
        intro v u hu
        exact (((hback u v).mp hu).lt h).1
      have hlt : ∀ v ∈ [e], v < ix.size := by
        intro v hv
        obtain rfl := List.mem_singleton.mp hv
        exact lt_of_parent_eq_some h.parents_eq hparent
      have hway : ReflTransGen (fun v u => ix.Leads (fun _ => true) u v ∧ ix.parent u = some l) e p ↔
          ReflTransGen (ix.LeadsFromBody l) p e := by
        have hswap : Function.swap (fun v u => ix.Leads (fun _ => true) u v ∧ ix.parent u = some l) =
            ix.LeadsFromBody l := by
          funext u v
          exact propext and_comm
        rw [← reflTransGen_swap, hswap]
      rw [(ix.topologicalOrder_perm _).mem_iff, List.mem_filter, List.contains_iff_mem,
        mem_explore_iff hinto hlt, reaches_iff]
      simp only [hback, beq_iff_eq, List.mem_singleton, exists_eq_left, Option.some.injEq,
        exists_eq_left', hparent, true_and, hway, positions, List.mem_range]
      apply and_iff_right_of_imp
      intro hp
      exact lt_of_parent_eq_some h.parents_eq (parent_of_leadsFromBody hparent hp)

theorem lt_of_mem_bodyOrder (h : ix.WellFormed) (hp : p ∈ ix.bodyOrder l) : p < ix.size := by
  obtain ⟨e, hend, hway⟩ := (mem_bodyOrder_iff h).mp hp
  exact lt_of_parent_eq_some h.parents_eq (parent_of_leadsFromBody (parent_of_bodyEnd? hend) hway)

/-- What a scope has of the body of its target are the nodes that a loop sees of its body, and the loop
itself when it has variables. -/
theorem mem_map_id_inner_iff (system : List Argument) {id : NodeId} :
    id ∈ (ix.scopeAt system t).inner.map (·.id) ↔ (ix.nodeAt t).isLoop = true ∧
      ((∃ p ∈ ix.bodyOrder t, (ix.nodeAt p).id = id) ∨
        ((ix.nodeAt t).config.vars ≠ [] ∧ (ix.nodeAt t).id = id)) := by
  by_cases hloop : (ix.nodeAt t).isLoop = true
  · have hbody : ∀ p m, (ix.innerEntry system p m).id = (ix.nodeAt p).id := fun _ _ => rfl
    have hown : ∀ m, id ∈ (ix.ownEntry t m).map (·.id) ↔
        (ix.nodeAt t).config.vars ≠ [] ∧ (ix.nodeAt t).id = id := by
      intro m
      rw [ownEntry, Node.loopVariables]
      cases (ix.nodeAt t).config.vars with
      | nil => simp
      | cons v rest => simp [entry, eq_comm]
    simp only [scopeAt, hloop, ↓reduceIte, List.map_append, List.mem_append, true_and, hown,
      map_collectScope hbody]
    rw [List.mem_map]
  · simp [scopeAt, hloop]

end Index

end FlowScope
