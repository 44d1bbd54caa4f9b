import FlowScope.Proofs.Countdown
/-!
The order is the least one. Where the edges between the nodes form no cycle, every one of them points
forward in the order, and of all orders like that it is the first when they are compared node by node,
by the places of the nodes in the list that is given.
-/
namespace FlowScope

open Relation

variable {before : Nat → Nat → Bool} {nodes waiting other : List Nat}

/-- Every edge between two nodes of an order points forward. -/
def Follows (before : Nat → Nat → Bool) (order : List Nat) : Prop :=
  ∀ u ∈ order, ∀ v ∈ order, before u v = true → order.idxOf u < order.idxOf v

/-- Nothing leads to the first node of such an order. -/
theorem Follows.head_free {v : Nat} (h : Follows before (v :: other)) :
    ∀ u ∈ v :: other, before u v = false := by
  intro u hu
  by_contra hedge
  have hlt := h u hu v List.mem_cons_self (Bool.eq_true_of_not_eq_false hedge)
  rw [List.idxOf_cons_self] at hlt
  exact Nat.not_lt_zero _ hlt

theorem Follows.tail {v : Nat} (h : Follows before (v :: other)) (hnodup : (v :: other).Nodup) :
    Follows before other := by
  have hnot : v ∉ other := (List.nodup_cons.mp hnodup).1
  intro a ha b hb hedge
  have hlt := h a (List.mem_cons_of_mem v ha) b (List.mem_cons_of_mem v hb) hedge
  rw [List.idxOf_cons_ne _ (ne_of_mem_of_not_mem ha hnot).symm,
    List.idxOf_cons_ne _ (ne_of_mem_of_not_mem hb hnot).symm] at hlt
  exact Nat.lt_of_succ_lt_succ hlt

/-- Where some waiting node is free, the first of the free ones is released. -/
theorem nextReleased_of_free {u : Nat} (hnodup : nodes.Nodup) (hsub : waiting.Sublist nodes)
    (hu : u ∈ waiting) (hfree : ∀ x ∈ waiting, before x u = false) :
    ∃ v, nextReleased before waiting = some v ∧ nodes.idxOf v ≤ nodes.idxOf u := by
  have hall : (waiting.all fun x => !before x u) = true := by simpa using hfree
  cases hfind : waiting.find? fun v => waiting.all fun x => !before x v with
  | none => exact absurd hall (List.find?_eq_none.mp hfind u hu)
  | some v =>
      refine ⟨v, ?_, Countdown.idxOf_le_of_find? hnodup hsub hfind hu hall⟩
      rw [nextReleased, hfind]
      rfl

/-- Another order of the waiting nodes in which the edges point forward comes after that of their
release. -/
theorem eq_or_lex_of_follows (hnodup : nodes.Nodup) (fuel : Nat) (hfuel : waiting.length ≤ fuel)
    (hsub : waiting.Sublist nodes) (hperm : other.Perm waiting) (hfollows : Follows before other) :
    other = releaseOrder before fuel waiting ∨
      List.Lex (· < ·) ((releaseOrder before fuel waiting).map nodes.idxOf)
        (other.map nodes.idxOf) := by
  induction fuel generalizing waiting other with
  | zero =>
      have hnil : waiting = [] := List.eq_nil_of_length_eq_zero (Nat.le_zero.mp hfuel)
      subst hnil
      exact Or.inl (List.perm_nil.mp hperm)
  | succ fuel ih =>
      cases other with
      | nil =>
          rw [List.nil_perm.mp hperm]
          exact Or.inl rfl
      | cons u rest =>
          have hu : u ∈ waiting := hperm.subset List.mem_cons_self
          have hfree : ∀ x ∈ waiting, before x u = false := fun x hx =>
            hfollows.head_free x (hperm.symm.subset hx)
          obtain ⟨v, hnext, hle⟩ := nextReleased_of_free hnodup hsub hu hfree
          have hv : v ∈ waiting := nextReleased_mem hnext
          rw [releaseOrder, hnext]
          rcases Nat.lt_or_eq_of_le hle with hlt | heq
          · exact Or.inr (List.Lex.rel hlt)
          · -- Both begin with the same node, and the rest is compared.
            obtain rfl : v = u := (List.idxOf_inj (hsub.subset hv)).mp heq
            have hrest : rest.Perm (waiting.erase v) :=
              (List.perm_cons v).mp (hperm.trans (List.perm_cons_erase hv))
            have hnodup' : (v :: rest).Nodup := hperm.nodup_iff.mpr (hsub.nodup hnodup)
            have hlength := List.length_erase_of_mem hv
            have hcompare := ih (by omega) (List.erase_sublist.trans hsub) hrest
              (hfollows.tail hnodup')
            rcases hcompare with hsame | hlex
            · exact Or.inl (congrArg (v :: ·) hsame)
            · exact Or.inr (List.Lex.cons hlex)

namespace Index

/-- Where no cycle runs between the nodes, the order follows every edge. -/
theorem follows_topologicalOrder (ix : Index) (hnodup : nodes.Nodup)
    (hacyclic : ∀ c, ¬TransGen (EdgeWithin ix.hasEdge { x | x ∈ nodes }) c c) :
    Follows ix.hasEdge (ix.topologicalOrder nodes) := by
  have hmem : ∀ x, x ∈ ix.topologicalOrder nodes ↔ x ∈ nodes := fun x =>
    (ix.topologicalOrder_perm nodes).mem_iff
  intro u hu v hv hedge
  rw [hmem] at hu hv
  apply (ix.idxOf_lt_iff_of_hasEdge hnodup hu hv hedge).mpr
  intro hfed
  obtain ⟨c, hcycle, -⟩ := hfed
  have hstep : EdgeWithin ix.hasEdge (restFrom nodes v) ≤
      EdgeWithin ix.hasEdge { x | x ∈ nodes } := by
    intro a b hab
    apply hab.mono
    intro x hx
    exact hx.1
  exact hacyclic c (TransGen.mono hstep c c hcycle)

/-- The order has every node once, whether there are cycles or not, and counting the edges on the way
no count has to fall below zero. Without cycles every edge points forward in it, and any other order
like that comes after it when the places of the nodes in the list are compared one after the other. -/
theorem topologicalOrder_least (ix : Index) (hnodup : nodes.Nodup) :
    Countdown.order ix nodes = some (ix.topologicalOrder nodes) ∧
      (ix.topologicalOrder nodes).Perm nodes ∧
      ((∀ c, ¬TransGen (EdgeWithin ix.hasEdge { x | x ∈ nodes }) c c) →
        Follows ix.hasEdge (ix.topologicalOrder nodes) ∧
          ∀ other : List Nat, other.Perm nodes → Follows ix.hasEdge other →
            other = ix.topologicalOrder nodes ∨
              List.Lex (· < ·) ((ix.topologicalOrder nodes).map nodes.idxOf)
                (other.map nodes.idxOf)) := by
  refine ⟨Countdown.order_eq ix hnodup, ix.topologicalOrder_perm nodes, ?_⟩
  intro hacyclic
  refine ⟨ix.follows_topologicalOrder hnodup hacyclic, ?_⟩
  intro other hperm hfollows
  exact eq_or_lex_of_follows hnodup nodes.length (Nat.le_refl _) (List.Sublist.refl _) hperm
    hfollows

end Index

namespace LeastOrderWitness

/-- Two branches that meet again. -/
def workflow : Workflow where
  nodes := [
    { id := ⟨"1"⟩, type := .start, next := [⟨"2"⟩, ⟨"3"⟩] },
    { id := ⟨"2"⟩, type := .code, next := [⟨"4"⟩] },
    { id := ⟨"3"⟩, type := .code, next := [⟨"4"⟩] },
    { id := ⟨"4"⟩, type := .finish }]

/-- Listed with the last one first and the second branch before the first one, the last one still waits
for both, and the branches stay as they are listed. -/
theorem topologicalOrder_least_branches :
    [3, 0, 2, 1].Nodup ∧ Countdown.order workflow.index [3, 0, 2, 1] = some [0, 2, 1, 3] ∧
      Follows workflow.index.hasEdge [0, 2, 1, 3] ∧
      ∀ other : List Nat, other.Perm [3, 0, 2, 1] → Follows workflow.index.hasEdge other →
        other = [0, 2, 1, 3] ∨
          List.Lex (· < ·) ([0, 2, 1, 3].map [3, 0, 2, 1].idxOf) (other.map [3, 0, 2, 1].idxOf) := by
  have hnodup : [3, 0, 2, 1].Nodup := by decide
  have horder : workflow.index.topologicalOrder [3, 0, 2, 1] = [0, 2, 1, 3] := by decide
  have hrises : ∀ u ∈ [3, 0, 2, 1], ∀ v ∈ [3, 0, 2, 1],
      workflow.index.hasEdge u v = true → u < v := by decide
  have hacyclic : ∀ c, ¬TransGen (EdgeWithin workflow.index.hasEdge { x | x ∈ [3, 0, 2, 1] }) c c := by
    intro c hcycle
    have hlt : TransGen (· < ·) c c :=
      TransGen.mono (fun u v h => hrises u h.1 v h.2.1 h.2.2) c c hcycle
    rw [transGen_eq_self] at hlt
    exact Nat.lt_irrefl c hlt
  obtain ⟨hcounted, -, hleast⟩ := workflow.index.topologicalOrder_least hnodup
  rw [horder] at hcounted hleast
  exact ⟨hnodup, hcounted, hleast hacyclic⟩

end LeastOrderWitness

end FlowScope
