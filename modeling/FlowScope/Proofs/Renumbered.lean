import FlowScope.Proofs.BodyMembers
import FlowScope.Proofs.Rearranged
/-!
Indices of the same nodes and edges with other positions. What is discovered before a node, the marks,
the loops around it and what a loop sees of its body are told by ways along edges and by enclosing
nodes, and not by the order in which anything is listed. So a renumbering takes all of it along.
-/
namespace FlowScope

open Relation

section Ways

variable {σ : Equiv.Perm Nat} {R R' : Nat → Nat → Prop} {u v : Nat}

/-- Renumbered steps make up renumbered ways. -/
theorem reflTransGen_renumbered (hstep : ∀ a b, R' (σ a) (σ b) ↔ R a b) :
    ReflTransGen R' (σ u) (σ v) ↔ ReflTransGen R u v := by
  constructor
  · intro hway
    have hback : ∀ a b, R' a b → R (σ.symm a) (σ.symm b) := by
      intro a b hab
      rw [← hstep]
      simpa using hab
    have hlifted : ReflTransGen R (σ.symm (σ u)) (σ.symm (σ v)) :=
      ReflTransGen.lift σ.symm hback _ _ hway
    simpa using hlifted
  · exact ReflTransGen.lift σ (fun a b => (hstep a b).mpr) u v

theorem transGen_renumbered (hstep : ∀ a b, R' (σ a) (σ b) ↔ R a b) :
    TransGen R' (σ u) (σ v) ↔ TransGen R u v := by
  rw [TransGen.head'_iff, TransGen.head'_iff, σ.surjective.exists]
  exact exists_congr fun b => and_congr (hstep u b) (reflTransGen_renumbered hstep)

end Ways

/-- The nodes before the target, each with its mark. -/
def Scope.marks (s : Scope) : List (NodeId × Bool) := s.previous.map fun e => (e.id, e.viaException)

namespace Index

variable {ix ix' : Index} {σ : Equiv.Perm Nat} {l p t u v : Nat}

/-- Where like nodes have renumbered positions, identifiers have. -/
theorem position?_renumbered (h : Placed.Sound ix.placed) (h' : Placed.Sound ix'.placed)
    (hlt : ∀ p, σ p < ix'.size ↔ p < ix.size)
    (halike : ∀ p, (ix.nodeAt p).Alike (ix'.nodeAt (σ p))) (id : NodeId) :
    ix'.position? id = (ix.position? id).map σ := by
  have hiff : ∀ p, ix'.position? id = some (σ p) ↔ ix.position? id = some p := by
    intro p
    rw [position?_eq_some_iff h', position?_eq_some_iff h, hlt, (halike p).id_eq]
  cases hid : ix.position? id with
  | some p => exact (hiff p).mpr hid
  | none =>
      rw [Option.map_none, Option.eq_none_iff_forall_ne_some]
      intro q hq
      obtain ⟨p, rfl⟩ := σ.surjective q
      rw [hiff, hid] at hq
      cases hq

/-- The node at `p` in one index is like that at `σ p` in the other, and so are the enclosing nodes. -/
structure Relisted (σ : Equiv.Perm Nat) (ix ix' : Index) : Prop where
  wellFormed : ix.WellFormed
  wellFormed' : ix'.WellFormed
  size_eq : ix'.size = ix.size
  lt_iff : ∀ p, σ p < ix'.size ↔ p < ix.size
  alike : ∀ p, (ix.nodeAt p).Alike (ix'.nodeAt (σ p))
  parent_eq : ∀ p, ix'.parent (σ p) = (ix.parent p).map σ

/-- The one index is the other with its positions renumbered. -/
structure Renumbered (σ : Equiv.Perm Nat) (ix ix' : Index) : Prop extends Relisted σ ix ix' where
  mem_out : ∀ {u v : Nat} {k : EdgeKind}, ⟨σ v, k⟩ ∈ ix'.out (σ u) ↔ ⟨v, k⟩ ∈ ix.out u

namespace Relisted

variable (h : Relisted σ ix ix')

include h

theorem position?_eq (id : NodeId) : ix'.position? id = (ix.position? id).map σ :=
  position?_renumbered h.wellFormed.sound h.wellFormed'.sound h.lt_iff h.alike id

theorem parent_eq_some : ix'.parent (σ p) = some (σ l) ↔ ix.parent p = some l := by
  rw [h.parent_eq]
  simp

theorem onward_iff : ix'.Onward (σ u) (σ v) ↔ ix.Onward u v := by
  have hloop : (ix'.nodeAt (σ u)).loop = some (ix'.nodeAt (σ v)).id ↔
      (ix.nodeAt u).loop = some (ix.nodeAt v).id := by
    rw [(h.alike u).loop_eq, (h.alike v).id_eq]
  constructor
  · intro honward
    exact ⟨(h.lt_iff u).mp honward.source_lt, (h.lt_iff v).mp honward.target_lt,
      σ.injective.ne_iff.mp honward.ne, hloop.not.mp honward.not_loop,
      h.parent_eq_some.not.mp honward.not_parent⟩
  · intro honward
    exact ⟨(h.lt_iff u).mpr honward.source_lt, (h.lt_iff v).mpr honward.target_lt,
      σ.injective.ne_iff.mpr honward.ne, hloop.not.mpr honward.not_loop,
      h.parent_eq_some.not.mpr honward.not_parent⟩

/-- The node that a loop names as one of its body is renumbered as well. -/
theorem bodyMember?_eq (name : Option NodeId) :
    ((name.bind ix'.position?).filter fun e => ix'.parent e == some (σ l)) =
      ((name.bind ix.position?).filter fun e => ix.parent e == some l).map σ := by
  have hposition : ix'.position? = Option.map σ ∘ ix.position? := funext h.position?_eq
  have hparent : (fun e => ix'.parent e == some (σ l)) ∘ σ = fun e => ix.parent e == some l := by
    funext e
    rw [Function.comp_apply, Bool.eq_iff_iff, beq_iff_eq, beq_iff_eq]
    exact h.parent_eq_some
  rw [hposition, ← Option.map_bind, Option.filter_map, hparent]

theorem bodyStart?_eq : ix'.bodyStart? (σ l) = (ix.bodyStart? l).map σ := by
  rw [bodyStart?, (h.alike l).innerStart_eq]
  exact h.bodyMember?_eq _

theorem bodyEnd?_eq : ix'.bodyEnd? (σ l) = (ix.bodyEnd? l).map σ := by
  rw [bodyEnd?, (h.alike l).innerEnd_eq]
  exact h.bodyMember?_eq _

theorem climb_eq (fuel : Nat) (seen : List Nat) (l : Option Nat) :
    ix'.climb fuel (seen.map σ) (l.map σ) = (ix.climb fuel seen l).map σ := by
  induction fuel generalizing seen l with
  | zero => cases l <;> rfl
  | succ fuel ih =>
      cases l with
      | none => rfl
      | some l =>
          have hseen : (seen.map σ).contains (σ l) = seen.contains l := by simp
          rw [Option.map_some, climb, climb, hseen]
          split
          · rfl
          · rw [List.map_cons, ← ih, List.map_cons, h.parent_eq]

theorem mem_loopChain : σ l ∈ ix'.loopChain (σ t) ↔ l ∈ ix.loopChain t := by
  have hchain : ix'.loopChain (σ t) = (ix.loopChain t).map σ := by
    rw [loopChain, loopChain, h.size_eq, h.parent_eq, ← h.climb_eq, List.map_singleton]
  rw [hchain, List.mem_map_of_injective σ.injective]

end Relisted

/-- An entry of a scope has the identifier of its node, and is marked when its node was discovered
with a mark. -/
theorem mem_marks_scopeAt_iff (system : List Argument) {id : NodeId} {mark : Bool} :
    (id, mark) ∈ (ix.scopeAt system t).marks ↔ ∃ p ∈ ix.scopeOrder t, (ix.nodeAt p).id = id ∧
      ((p, true) ∈ ix.discover t ↔ mark = true) := by
  have hread : ∀ p m, (fun e : ScopeNode => (e.id, e.viaException))
      (ix.previousEntry system (ix.loopChain t) (ix.discover t) p m) =
        ((ix.nodeAt p).id, (ix.discover t).any fun found => found.1 == p && found.2) :=
    fun _ _ => rfl
  have hany : ∀ p, ((ix.discover t).any fun found => found.1 == p && found.2) = mark ↔
      ((p, true) ∈ ix.discover t ↔ mark = true) := by
    intro p
    rw [Bool.eq_iff_iff, List.any_eq_true]
    simp
  rw [Scope.marks, previous_scopeAt, map_collectScope hread, List.mem_map]
  simp only [Prod.mk.injEq, hany]

/-- Marked are the discovered nodes that lie on no way of normal edges. -/
theorem mem_discover_true_iff (h : ix.WellFormed) :
    (p, true) ∈ ix.discover t ↔
      p ∈ ix.discovered t ∧ ¬ ix.OnWay (ix.Leads EdgeKind.isNormal) t p := by
  constructor
  · intro hp
    refine ⟨?_, fun hway => ?_⟩
    · rw [← map_fst_discover]
      exact List.mem_map_of_mem hp
    · exact Bool.noConfusion ((eq_false_iff_of_mem_discover h hp).mpr hway)
  · intro hp
    obtain ⟨hp, hnot⟩ := hp
    rw [← map_fst_discover, List.mem_map] at hp
    obtain ⟨⟨q, viaException⟩, hq, rfl⟩ := hp
    cases viaException with
    | true => exact hq
    | false => exact absurd ((eq_false_iff_of_mem_discover h hq).mp rfl) hnot

namespace Renumbered

variable (h : Renumbered σ ix ix')

include h

theorem leads_iff {accept : EdgeKind → Bool} (u v : Nat) :
    ix'.Leads accept (σ u) (σ v) ↔ ix.Leads accept u v :=
  exists_congr fun _ => and_congr_right fun _ => h.mem_out

theorem isRoot_eq : ix'.isRoot (σ p) = ix.isRoot p := by
  have hfalse : ix'.isRoot (σ p) = false ↔ ix.isRoot p = false := by
    rw [isRoot_eq_false_iff h.wellFormed', isRoot_eq_false_iff h.wellFormed, (h.alike p).type_eq,
      σ.surjective.exists]
    exact and_congr_left' (exists_congr fun u => h.leads_iff u p)
  rw [Bool.eq_iff_iff]
  simpa only [Bool.not_eq_false] using not_congr hfalse

theorem mem_roots : σ p ∈ ix'.roots ↔ p ∈ ix.roots := by
  rw [roots, roots, List.mem_filter, List.mem_filter, positions, positions, List.mem_range,
    List.mem_range, h.lt_iff, h.isRoot_eq]

theorem fromRoot_iff {accept : EdgeKind → Bool} :
    ix'.FromRoot (ix'.Leads accept) (σ t) (σ p) ↔ ix.FromRoot (ix.Leads accept) t p := by
  have hstep : ∀ a b, (ix'.Leads accept (σ a) (σ b) ∧ σ b ≠ σ t) ↔ (ix.Leads accept a b ∧ b ≠ t) :=
    fun a b => and_congr (h.leads_iff a b) σ.injective.ne_iff
  rw [FromRoot, FromRoot, σ.surjective.exists]
  refine exists_congr fun r => and_congr h.mem_roots (and_congr σ.injective.ne_iff ?_)
  exact reflTransGen_renumbered hstep

theorem onWay_leads_iff {accept : EdgeKind → Bool} :
    ix'.OnWay (ix'.Leads accept) (σ t) (σ p) ↔ ix.OnWay (ix.Leads accept) t p := by
  rw [onWay_iff, onWay_iff, h.fromRoot_iff, transGen_renumbered h.leads_iff, σ.injective.ne_iff]

theorem mem_discovered : σ p ∈ ix'.discovered (σ t) ↔ p ∈ ix.discovered t := by
  rw [mem_discovered_iff h.wellFormed', mem_discovered_iff h.wellFormed, h.isRoot_eq, h.fromRoot_iff,
    transGen_renumbered h.leads_iff, σ.injective.ne_iff]

theorem mem_scopeOrder : σ p ∈ ix'.scopeOrder (σ t) ↔ p ∈ ix.scopeOrder t := by
  have hvisible : (∀ l, ix'.parent (σ p) = some l → l ∈ ix'.loopChain (σ t)) ↔
      ∀ l, ix.parent p = some l → l ∈ ix.loopChain t := by
    rw [σ.surjective.forall]
    exact forall_congr' fun l => imp_congr h.parent_eq_some h.mem_loopChain
  rw [mem_scopeOrder_iff, mem_scopeOrder_iff, h.mem_loopChain, h.mem_discovered, hvisible]

theorem mem_bodyOrder : σ p ∈ ix'.bodyOrder (σ l) ↔ p ∈ ix.bodyOrder l := by
  have hstep : ∀ a b, ix'.LeadsFromBody (σ l) (σ a) (σ b) ↔ ix.LeadsFromBody l a b :=
    fun a b => and_congr h.parent_eq_some (h.leads_iff a b)
  rw [mem_bodyOrder_iff h.wellFormed', mem_bodyOrder_iff h.wellFormed, σ.surjective.exists]
  refine exists_congr fun e => and_congr ?_ (reflTransGen_renumbered hstep)
  rw [h.bodyEnd?_eq]
  simp

theorem mem_marks_scopeAt (system system' : List Argument) {id : NodeId} {mark : Bool} :
    (id, mark) ∈ (ix'.scopeAt system' (σ t)).marks ↔ (id, mark) ∈ (ix.scopeAt system t).marks := by
  rw [mem_marks_scopeAt_iff, mem_marks_scopeAt_iff, σ.surjective.exists]
  refine exists_congr fun p => and_congr h.mem_scopeOrder ?_
  rw [(h.alike p).id_eq, mem_discover_true_iff h.wellFormed', mem_discover_true_iff h.wellFormed,
    h.mem_discovered, h.onWay_leads_iff]

theorem mem_map_id_inner (system system' : List Argument) {id : NodeId} :
    id ∈ (ix'.scopeAt system' (σ t)).inner.map (·.id) ↔
      id ∈ (ix.scopeAt system t).inner.map (·.id) := by
  rw [mem_map_id_inner_iff, mem_map_id_inner_iff, (h.alike t).isLoop_eq, (h.alike t).vars_eq,
    (h.alike t).id_eq, σ.surjective.exists]
  refine and_congr_right fun _ => or_congr_left (exists_congr fun p => ?_)
  rw [h.mem_bodyOrder, (h.alike p).id_eq]

end Renumbered

end Index

end FlowScope
