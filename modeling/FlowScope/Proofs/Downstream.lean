import FlowScope.Proofs.ScopeMembers
/-!
Scopes along an edge. Where the edges form no cycle, every node is reached from a root, and no way to
what stands before a node meets the node itself. So the nodes discovered before a node are simply those
that lead to it, and nothing gets out of scope along an edge that does not leave a loop.
-/
namespace FlowScope

open Relation

namespace Index

/-- No way along edges comes back to where it began. -/
def Acyclic (ix : Index) : Prop := ∀ p, ¬TransGen (ix.Leads fun _ => true) p p

variable {ix : Index} {R : Nat → Nat → Prop} {t u v p : Nat}

/-- Edges that all lead to later positions form no cycle. -/
theorem acyclic_of_lt (h : ∀ u v, ix.Leads (fun _ => true) u v → u < v) : ix.Acyclic :=
  not_transGen_self h

/-- Without cycles, going back from any node comes to a root. -/
theorem Acyclic.exists_root (hacyclic : ix.Acyclic) (h : ix.WellFormed) (hp : p < ix.size) :
    ∃ r ∈ ix.roots, ReflTransGen (ix.Leads fun _ => true) r p := by
  have hleads : ∀ a b, EdgeWithin ix.hasEdge { x | x ∈ ix.positions } a b →
      ix.Leads (fun _ => true) a b := fun a b hab => hasEdge_iff_leads.mp hab.2.2
  have hfree : ∀ c, ¬TransGen (EdgeWithin ix.hasEdge { x | x ∈ ix.positions }) c c := fun c hcycle =>
    hacyclic c (TransGen.mono hleads c c hcycle)
  obtain ⟨r, hr, hsource, hway⟩ := exists_source hfree (List.mem_range.mpr hp)
  refine ⟨r, List.mem_filter.mpr ⟨hr, ?_⟩, ReflTransGen.mono hleads r p hway⟩
  by_contra hroot
  obtain ⟨⟨u, hu⟩, -⟩ := (isRoot_eq_false_iff h).mp (Bool.eq_false_of_not_eq_true hroot)
  have hnone := hsource u (List.mem_range.mpr (hu.lt h).1)
  rw [hasEdge_iff_leads.mpr hu] at hnone
  exact Bool.noConfusion hnone

/-- A way to a place that `t` does not lead to does not meet `t`. -/
theorem fromRoot_of_not_reaching {r : Nat} (hr : r ∈ ix.roots) (hway : ReflTransGen R r p)
    (hnot : ¬ReflTransGen R t p) : ix.FromRoot R t p := by
  refine ⟨r, hr, fun heq => hnot (heq ▸ hway), ?_⟩
  induction hway with
  | refl => exact .refl
  | @tail a b _ hstep ih =>
      have hbefore : ¬ReflTransGen R t a := fun hreach => hnot (hreach.tail hstep)
      exact (ih hbefore).tail ⟨hstep, fun heq => hnot (heq ▸ .refl)⟩

/-- Without cycles, exactly the nodes that lead to a target are discovered before it, unless it is a
root. -/
theorem Acyclic.mem_discovered_iff (hacyclic : ix.Acyclic) (h : ix.WellFormed) :
    p ∈ ix.discovered t ↔ ix.isRoot t = false ∧ TransGen (ix.Leads fun _ => true) p t := by
  rw [Index.mem_discovered_iff h]
  constructor
  · intro hp
    exact ⟨hp.1, hp.2.2.2⟩
  · intro hp
    obtain ⟨hroot, hway⟩ := hp
    obtain ⟨q, hleads, -⟩ := TransGen.head'_iff.mp hway
    obtain ⟨r, hr, hfrom⟩ := hacyclic.exists_root h (hleads.lt h).1
    have hnot : ¬ReflTransGen (ix.Leads fun _ => true) t p := fun hback =>
      hacyclic t (TransGen.trans_right hback hway)
    have hne : p ≠ t := fun heq => hacyclic t (heq ▸ hway)
    exact ⟨hroot, hne, fromRoot_of_not_reaching hr hfrom hnot, hway⟩

/-- The loops around a node are counted from the one that directly encloses it. -/
theorem parent_mem_loopChain (h : ix.WellFormed) {l : Nat} (hl : ix.parent p = some l) :
    l ∈ ix.loopChain p := by
  obtain ⟨hlt, hne⟩ := parent_lt h.sound h.parents_eq hl
  obtain ⟨n, hn⟩ := Nat.exists_eq_succ_of_ne_zero (Nat.ne_of_gt (Nat.zero_lt_of_lt hlt))
  rw [loopChain, hl, hn, climb, if_neg (by simpa using hne)]
  exact List.mem_cons_self

/-- Without cycles, a node and all of its scope stay in scope behind an edge to a node that is in all
the loops that the first one is in. -/
theorem Acyclic.mem_scopeOrder_of_leads (hacyclic : ix.Acyclic) (h : ix.WellFormed)
    (hleads : ix.Leads (fun _ => true) u v) (hstart : (ix.nodeAt v).type ≠ .start)
    (hchain : ∀ l ∈ ix.loopChain u, l ∈ ix.loopChain v) (hp : p = u ∨ p ∈ ix.scopeOrder u) :
    p ∈ ix.scopeOrder v := by
  have hroot := (isRoot_eq_false_iff h).mpr ⟨⟨u, hleads⟩, hstart⟩
  have hdiscovered : ReflTransGen (ix.Leads fun _ => true) p u →
      (∀ l, ix.parent p = some l → l ∈ ix.loopChain u) → p ∈ ix.scopeOrder v := by
    intro hway hparent
    rw [mem_scopeOrder_iff, hacyclic.mem_discovered_iff h]
    exact Or.inr ⟨⟨hroot, TransGen.tail' hway hleads⟩, fun l hl => hchain l (hparent l hl)⟩
  rcases hp with rfl | hp
  · exact hdiscovered .refl fun l hl => parent_mem_loopChain h hl
  · rcases mem_scopeOrder_iff.mp hp with hp | ⟨hp, hparent⟩
    · exact mem_scopeOrder_iff.mpr (Or.inl (hchain p hp))
    · have hway := ((hacyclic.mem_discovered_iff h).mp hp).2
      exact hdiscovered hway.to_reflTransGen hparent

end Index

/-- Scopes only grow along edges. Where no edges form a cycle, the source of an edge and all nodes in its
scope are in the scope of the end, as long as the end is no start and lies in all loops that the source
lies in. -/
theorem Workflow.previousIds_subset_of_leads (w : Workflow) (further : List Argument)
    (hacyclic : w.index.Acyclic) {a b : NodeId} {u v : Nat} (hu : w.index.position? a = some u)
    (hv : w.index.position? b = some v) (hleads : w.index.Leads (fun _ => true) u v)
    (hstart : (w.index.nodeAt v).type ≠ .start)
    (hchain : ∀ l ∈ w.index.loopChain u, l ∈ w.index.loopChain v) :
    a ∈ (w.scope further b).previousIds ∧
      ∀ x ∈ (w.scope further a).previousIds, x ∈ (w.scope further b).previousIds := by
  have h := w.index_wellFormed
  have hid := ((Index.position?_eq_some_iff h.sound).mp hu).2
  have hkept : ∀ p, p = u ∨ p ∈ w.index.scopeOrder u →
      (w.index.nodeAt p).id ∈ (w.scope further b).previousIds := by
    intro p hp
    rw [Workflow.scope, hv, Index.previousIds_scopeAt]
    apply List.mem_map_of_mem
    exact hacyclic.mem_scopeOrder_of_leads h hleads hstart hchain hp
  constructor
  · rw [← hid]
    exact hkept u (Or.inl rfl)
  · intro x hx
    rw [Workflow.scope, hu, Index.previousIds_scopeAt] at hx
    obtain ⟨p, hp, rfl⟩ := List.mem_map.mp hx
    exact hkept p (Or.inr hp)

namespace DownstreamWitness

/-- A loop that hands over to another node when it fails, with two nodes in its body. -/
def workflow : Workflow where
  nodes := [
    { id := ⟨"1"⟩, type := .start, next := [⟨"2"⟩] },
    { id := ⟨"2"⟩, type := .loop, next := [⟨"6"⟩], config := {
        failure := some ⟨none, [⟨"5"⟩]⟩ } },
    { id := ⟨"3"⟩, type := .code, loop := some ⟨"2"⟩, next := [⟨"4"⟩, ⟨"2"⟩] },
    { id := ⟨"4"⟩, type := .code, loop := some ⟨"2"⟩, next := [⟨"2"⟩] },
    { id := ⟨"5"⟩, type := .code, next := [⟨"6"⟩] },
    { id := ⟨"6"⟩, type := .finish }]

theorem previousIds_subset_of_leads_body :
    workflow.index.Acyclic ∧ (workflow.scope [] ⟨"2"⟩).previousIds = [⟨"1"⟩] ∧
      ⟨"2"⟩ ∈ (workflow.scope [] ⟨"3"⟩).previousIds ∧
      ⟨"1"⟩ ∈ (workflow.scope [] ⟨"3"⟩).previousIds := by
  have hforward : ∀ u ∈ workflow.index.positions, ∀ l ∈ workflow.index.out u, u < l.node := by decide
  have hacyclic : workflow.index.Acyclic := by
    apply Index.acyclic_of_lt
    intro u v hleads
    obtain ⟨k, -, hmem⟩ := hleads
    have hlt := (workflow.index_wellFormed.out_lt hmem).1
    exact hforward u (List.mem_range.mpr hlt) _ hmem
  have hbefore : (workflow.scope [] ⟨"2"⟩).previousIds = [⟨"1"⟩] := by decide
  obtain ⟨hsource, hscope⟩ := workflow.previousIds_subset_of_leads [] hacyclic
    (a := ⟨"2"⟩) (b := ⟨"3"⟩) (u := 1) (v := 2) (by decide) (by decide)
    ⟨.loopBody, rfl, by decide⟩ (by decide) (by decide)
  exact ⟨hacyclic, hbefore, hsource, hscope _ (by rw [hbefore]; exact List.mem_cons_self)⟩

end DownstreamWitness

end FlowScope
