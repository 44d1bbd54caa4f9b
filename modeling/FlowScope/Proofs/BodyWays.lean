import FlowScope.Proofs.BodyMembers
import FlowScope.Proofs.Downstream
/-!
Ways into the body of a loop. A loop that names no node where its body begins leads to every node of the
body that no other node of the body leads to. Where the edges in the body form no cycle, going back from
any node of the body comes to such a node, so the loop leads to all of its body through the body alone.
-/
namespace FlowScope

open Relation

namespace Index

variable {ix : Index} {l u v t : Nat}

theorem mem_body_iff (h : ix.WellFormed) : v ∈ ix.body l ↔ ix.parent v = some l := by
  rw [body, List.mem_filter, beq_iff_eq, positions, List.mem_range]
  exact and_iff_right_of_imp fun hv => lt_of_parent_eq_some h.parents_eq hv

theorem edgeWithin_body_iff (h : ix.WellFormed) :
    EdgeWithin ix.hasEdge { x | x ∈ ix.body l } u v ↔ ix.LeadsInBody l u v := by
  simp only [EdgeWithin, Set.mem_ofPred_eq, mem_body_iff h, hasEdge_iff_leads, LeadsInBody]

/-- A loop whose body begins nowhere in particular has its body begin at what no member leads to. -/
theorem exists_beginsAt (h : ix.WellFormed) (hstart : ix.bodyStart? l = none)
    (hacyclic : ∀ p, ¬TransGen (ix.LeadsInBody l) p p) (hv : ix.parent v = some l) :
    ∃ first, ix.BeginsAt l first ∧ ix.parent first = some l ∧
      ReflTransGen (ix.LeadsInBody l) first v := by
  have hedges : EdgeWithin ix.hasEdge { x | x ∈ ix.body l } = ix.LeadsInBody l := by
    funext a b
    exact propext (edgeWithin_body_iff h)
  obtain ⟨first, hfirst, hsource, hway⟩ :=
    exists_source (hedges ▸ hacyclic) ((mem_body_iff h).mpr hv)
  have hparent := (mem_body_iff h).mp hfirst
  refine ⟨first, Or.inr ⟨hstart, hparent, fun a ha => ?_⟩, hparent, hedges ▸ hway⟩
  exact hsource a ((mem_body_iff h).mpr ha)

end Index

/-- A loop that names no start node of its body leads to every node of the body through nodes of the body,
if the edges there form no cycle. So it is discovered before each of them that is no root, as long as a
root leads to it and does not pass through that node. -/
theorem Workflow.leads_through_body (w : Workflow) {l : Nat}
    (hloop : (w.index.nodeAt l).isLoop = true) (hstart : w.index.bodyStart? l = none)
    (hacyclic : ∀ p, ¬TransGen (w.index.LeadsInBody l) p p) :
    (∀ v, w.index.parent v = some l → ∃ first, w.index.Leads (fun _ => true) l first ∧
      w.index.parent first = some l ∧ ReflTransGen (w.index.LeadsInBody l) first v) ∧
    ∀ t, w.index.parent t = some l → w.index.isRoot t = false →
      w.index.FromRoot (w.index.Leads fun _ => true) t l → l ∈ (w.index.discover t).map (·.1) := by
  have h := w.index_wellFormed
  have hinto : ∀ v, w.index.parent v = some l → ∃ first, w.index.Leads (fun _ => true) l first ∧
      w.index.parent first = some l ∧ ReflTransGen (w.index.LeadsInBody l) first v := by
    intro v hv
    obtain ⟨first, hbegins, hparent, hway⟩ := Index.exists_beginsAt h hstart hacyclic hv
    exact ⟨first, w.leads_of_declares (k := .loopBody) ⟨hloop, hbegins⟩, hparent, hway⟩
  refine ⟨hinto, fun t ht hroot hfrom => ?_⟩
  obtain ⟨first, hleads, -, hway⟩ := hinto t ht
  have hway : ReflTransGen (w.index.Leads fun _ => true) first t :=
    ReflTransGen.mono (fun a b hab => hab.2.2) first t hway
  rw [Index.map_fst_discover, Index.mem_discovered_iff h]
  exact ⟨hroot, (Index.parent_lt h.sound h.parents_eq ht).2, hfrom, TransGen.head' hleads hway⟩

namespace BodyWaysWitness

/-- The loop names one node of its body as its successor, and another one leads to the third. -/
def workflow : Workflow where
  nodes := [
    { id := ⟨"1"⟩, type := .start, next := [⟨"2"⟩] },
    { id := ⟨"2"⟩, type := .loop, next := [⟨"3"⟩], inner := [
        { id := ⟨"3"⟩, type := .code, next := [⟨"5"⟩] },
        { id := ⟨"4"⟩, type := .code, next := [⟨"5"⟩] },
        { id := ⟨"5"⟩, type := .code, next := [⟨"2"⟩] }] }]

theorem leads_through_body_third :
    (workflow.index.nodeAt 1).isLoop = true ∧ workflow.index.bodyStart? 1 = none ∧
      (∀ p, ¬TransGen (workflow.index.LeadsInBody 1) p p) ∧ workflow.index.parent 4 = some 1 ∧
      workflow.index.isRoot 4 = false ∧ 1 ∈ (workflow.index.discover 4).map (·.1) := by
  have hloop : (workflow.index.nodeAt 1).isLoop = true := by decide
  have hstart : workflow.index.bodyStart? 1 = none := by decide
  have hforward : ∀ u ∈ workflow.index.body 1, ∀ v ∈ workflow.index.body 1,
      workflow.index.hasEdge u v = true → u < v := by decide
  have hacyclic : ∀ p, ¬TransGen (workflow.index.LeadsInBody 1) p p := by
    apply not_transGen_self (S := (· < ·))
    intro u v huv
    obtain ⟨hu, hv, hedge⟩ := (Index.edgeWithin_body_iff workflow.index_wellFormed).mpr huv
    exact hforward u hu v hv hedge
  have hparent : workflow.index.parent 4 = some 1 := by decide
  have hroot : workflow.index.isRoot 4 = false := by decide
  have hfrom : workflow.index.FromRoot (workflow.index.Leads fun _ => true) 4 1 :=
    ⟨0, by decide, by decide, .single ⟨⟨.next, rfl, by decide⟩, by decide⟩⟩
  obtain ⟨-, hdiscovered⟩ := workflow.leads_through_body hloop hstart hacyclic
  exact ⟨hloop, hstart, hacyclic, hparent, hroot, hdiscovered 4 hparent hroot hfrom⟩

end BodyWaysWitness

end FlowScope
