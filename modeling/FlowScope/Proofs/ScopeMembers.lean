import FlowScope.Proofs.ReleaseOrder
import FlowScope.Scope.Basic
import Mathlib.Data.List.Nodup
/-!
Which nodes belong to the scope of a node: those discovered before it that are in no body or in the
body of a loop around it, and the loops around it. Ordering the nodes and putting loops in only moves
them, so each is there once.
-/
namespace FlowScope

open Relation

namespace Index

variable {ix : Index} {t : Nat}

/-- What is met on the way up encloses something, and has not been seen before. -/
theorem mem_climb {fuel i l : Nat} {seen : List Nat} (hl : l ∈ ix.climb fuel seen (ix.parent i)) :
    l ∉ seen ∧ ∃ j, ix.parent j = some l := by
  induction fuel generalizing seen i with
  | zero =>
      cases hparent : ix.parent i <;> simp [hparent, climb] at hl
  | succ fuel ih =>
      cases hparent : ix.parent i with
      | none => simp [hparent, climb] at hl
      | some k =>
          rw [hparent, climb] at hl
          by_cases hseen : k ∈ seen
          · simp [hseen] at hl
          · rw [if_neg (by simpa using hseen)] at hl
            rcases List.mem_cons.mp hl with rfl | hl
            · exact ⟨hseen, i, hparent⟩
            · obtain ⟨hnew, hencloses⟩ := ih hl
              exact ⟨fun hmem => hnew (List.mem_cons_of_mem k hmem), hencloses⟩

theorem ne_of_mem_loopChain {l : Nat} (hl : l ∈ ix.loopChain t) : l ≠ t := by
  have hnew := (mem_climb hl).1
  simpa using hnew

theorem lt_of_mem_loopChain (h : ix.WellFormed) {l : Nat} (hl : l ∈ ix.loopChain t) :
    l < ix.size := by
  obtain ⟨j, hj⟩ := (mem_climb hl).2
  exact (parent_lt h.sound h.parents_eq hj).1

theorem mem_visible_iff {chain ordered : List Nat} {p : Nat} :
    p ∈ ix.visible chain ordered ↔ p ∈ ordered ∧ ∀ l, ix.parent p = some l → l ∈ chain := by
  rw [visible, List.mem_filter]
  cases ix.parent p <;> simp

theorem withLoop_of_mem {l : Nat} {nodes : List Nat} (hl : l ∈ nodes) : ix.withLoop l nodes = nodes := by
  rw [withLoop, if_pos (by simpa using hl)]

theorem withLoop_perm (l : Nat) (nodes : List Nat) :
    (ix.withLoop l nodes).Perm (nodes.insert l) := by
  by_cases hl : l ∈ nodes
  · rw [withLoop_of_mem hl, List.insert_of_mem hl]
  · rw [withLoop, if_neg (by simpa using hl), List.insert_of_not_mem hl]
    refine List.perm_middle.trans (List.Perm.cons l ?_)
    rw [List.takeWhile_append_dropWhile]

theorem withLoops_perm (chain nodes : List Nat) :
    (ix.withLoops chain nodes).Perm (chain ∪ nodes) := by
  induction chain with
  | nil => exact List.Perm.refl _
  | cons l rest ih =>
      rw [List.cons_union]
      exact (withLoop_perm l _).trans (ih.insert l)

theorem mem_withLoops_iff {chain nodes : List Nat} {p : Nat} :
    p ∈ ix.withLoops chain nodes ↔ p ∈ chain ∨ p ∈ nodes := by
  rw [(withLoops_perm chain nodes).mem_iff, List.mem_union_iff]

theorem scopeOrder_perm :
    (ix.scopeOrder t).Perm
      (ix.loopChain t ∪ ix.visible (ix.loopChain t) (ix.topologicalOrder (ix.discovered t))) := by
  rw [scopeOrder, map_fst_discover]
  exact withLoops_perm _ _

theorem nodup_scopeOrder : (ix.scopeOrder t).Nodup := by
  rw [scopeOrder_perm.nodup_iff]
  apply List.Nodup.union
  apply List.Nodup.filter
  rw [(ix.topologicalOrder_perm _).nodup_iff]
  exact nodup_discovered

theorem mem_scopeOrder_iff {p : Nat} :
    p ∈ ix.scopeOrder t ↔ p ∈ ix.loopChain t ∨
      (p ∈ ix.discovered t ∧ ∀ l, ix.parent p = some l → l ∈ ix.loopChain t) := by
  rw [scopeOrder_perm.mem_iff, List.mem_union_iff, mem_visible_iff,
    (ix.topologicalOrder_perm _).mem_iff]

theorem lt_of_mem_discovered (h : ix.WellFormed) {p : Nat} (hp : p ∈ ix.discovered t) :
    p < ix.size := by
  obtain ⟨-, -, -, hto⟩ := (mem_discovered_iff h).mp hp
  obtain ⟨q, hleads, -⟩ := TransGen.head'_iff.mp hto
  exact (hleads.lt h).1

theorem lt_of_mem_scopeOrder (h : ix.WellFormed) {p : Nat} (hp : p ∈ ix.scopeOrder t) :
    p < ix.size := by
  rcases mem_scopeOrder_iff.mp hp with hp | ⟨hp, -⟩
  · exact lt_of_mem_loopChain h hp
  · exact lt_of_mem_discovered h hp

theorem ne_of_mem_scopeOrder (h : ix.WellFormed) {p : Nat} (hp : p ∈ ix.scopeOrder t) : p ≠ t := by
  rcases mem_scopeOrder_iff.mp hp with hp | ⟨hp, -⟩
  · exact ne_of_mem_loopChain hp
  · exact ((mem_discovered_iff h).mp hp).2.1

end Index

/-- What is read of the entries of a scope and does not depend on the arguments before them, is read of
the nodes they were made from, in order. -/
theorem map_collectScope {α : Type} {entryAt : Nat → ArgumentMap → ScopeNode} {read : ScopeNode → α}
    {readAt : Nat → α} (hread : ∀ p m, read (entryAt p m) = readAt p) (nodes : List Nat)
    (m : ArgumentMap) : (collectScope entryAt nodes m).1.map read = nodes.map readAt := by
  induction nodes generalizing m with
  | nil => rfl
  | cons p rest ih =>
      rw [collectScope, List.map_cons, List.map_cons, ih, hread]

namespace Index

variable {ix : Index} {t : Nat}

theorem previous_scopeAt (system : List Argument) :
    (ix.scopeAt system t).previous =
      (collectScope (ix.previousEntry system (ix.loopChain t) (ix.discover t)) (ix.scopeOrder t) {}).1 := by
  unfold scopeAt
  by_cases hloop : (ix.nodeAt t).isLoop = true
  · simp only [hloop, ↓reduceIte]
  · simp only [hloop]
    rfl

theorem previousIds_scopeAt (system : List Argument) :
    (ix.scopeAt system t).previousIds = (ix.scopeOrder t).map fun p => (ix.nodeAt p).id := by
  have hid : ∀ p m, (ix.previousEntry system (ix.loopChain t) (ix.discover t) p m).id =
      (ix.nodeAt p).id := fun _ _ => rfl
  rw [Scope.previousIds, previous_scopeAt, map_collectScope hid]

end Index

theorem Workflow.scope_eq_scopeAt (w : Workflow) (further : List Argument) {target : NodeId} {t : Nat}
    (ht : w.index.position? target = some t) :
    w.scope further target = w.index.scopeAt (w.allSystemVariables further) t := by
  rw [scope, ht]

theorem Workflow.previousIds_scope (w : Workflow) (further : List Argument) {target : NodeId} {t : Nat}
    (ht : w.index.position? target = some t) : (w.scope further target).previousIds =
      (w.index.scopeOrder t).map fun p => (w.index.nodeAt p).id := by
  rw [w.scope_eq_scopeAt further ht, Index.previousIds_scopeAt]

/-- The scope of a node has the nodes on the ways from the roots to it, as far as they are in no body
or directly in that of a loop around it, and the loops around it; each once, and not the node itself. -/
theorem Workflow.mem_previousIds_scope (w : Workflow) (further : List Argument) {id : NodeId} {t : Nat}
    (ht : w.index.position? id = some t) :
    (w.scope further id).previousIds.Nodup ∧ id ∉ (w.scope further id).previousIds ∧
      ∀ x, x ∈ (w.scope further id).previousIds ↔ ∃ p, w.index.position? x = some p ∧
        (p ∈ w.index.loopChain t ∨
          (p ≠ t ∧ w.index.isRoot t = false ∧ w.index.FromRoot (w.index.Leads fun _ => true) t p ∧
            TransGen (w.index.Leads fun _ => true) p t ∧
            ∀ l, w.index.parent p = some l → l ∈ w.index.loopChain t)) := by
  have h := w.index_wellFormed
  have hlt : ∀ p ∈ w.index.scopeOrder t, p < w.index.size := fun p hp =>
    Index.lt_of_mem_scopeOrder h hp
  have hids : (w.scope further id).previousIds =
      (w.index.scopeOrder t).map fun p => (w.index.nodeAt p).id := by
    rw [Workflow.scope, ht]
    exact Index.previousIds_scopeAt _
  rw [hids]
  refine ⟨Index.nodup_map_id h hlt Index.nodup_scopeOrder, ?_, fun x => ?_⟩
  · rw [Index.mem_map_id_iff h hlt]
    rintro ⟨p, hposition, hp⟩
    rw [ht] at hposition
    exact Index.ne_of_mem_scopeOrder h hp (Option.some.inj hposition).symm
  · rw [Index.mem_map_id_iff h hlt]
    refine exists_congr fun p => and_congr_right fun _ => ?_
    rw [Index.mem_scopeOrder_iff, Index.mem_discovered_iff h]
    tauto

namespace ScopeMembersWitness

/-- Two loops that are in each other's bodies, and a circle of nodes in one of them. -/
def workflow : Workflow where
  nodes := [
    { id := ⟨"1"⟩, type := .start, next := [⟨"2"⟩] },
    { id := ⟨"2"⟩, type := .loop, loop := some ⟨"3"⟩, next := [⟨"6"⟩] },
    { id := ⟨"3"⟩, type := .loop, loop := some ⟨"2"⟩ },
    { id := ⟨"4"⟩, type := .code, loop := some ⟨"2"⟩, next := [⟨"5"⟩] },
    { id := ⟨"5"⟩, type := .code, loop := some ⟨"2"⟩, next := [⟨"4"⟩] },
    { id := ⟨"6"⟩, type := .finish, next := [⟨"1"⟩] }]

theorem mem_previousIds_scope_circle :
    workflow.index.position? ⟨"5"⟩ = some 4 ∧ (workflow.scope [] ⟨"5"⟩).previousIds.Nodup ∧
      ⟨"5"⟩ ∉ (workflow.scope [] ⟨"5"⟩).previousIds ∧
      ⟨"3"⟩ ∈ (workflow.scope [] ⟨"5"⟩).previousIds := by
  have ht : workflow.index.position? ⟨"5"⟩ = some 4 := by decide
  obtain ⟨hnodup, hnot, hmem⟩ := workflow.mem_previousIds_scope [] ht
  exact ⟨ht, hnodup, hnot, (hmem ⟨"3"⟩).mpr ⟨2, by decide, Or.inl (by decide)⟩⟩

end ScopeMembersWitness

end FlowScope
