import FlowScope.Proofs.Declared
import FlowScope.Workflow.Stats
import Mathlib
/-!
The finished table of edges as it is seen from outside, by identifiers. Between two nodes there is one
edge at most, of the first kind under which it is declared; every edge is listed once with its source
and once with its target; and the counts of the kinds and of the incoming edges both add up to the
number of edges.
-/
namespace FlowScope

namespace Link

/-- A push does not give a node a second link. -/
theorem nodup_push {links : List Link} (h : (links.map (·.node)).Nodup) (l : Link) :
    ((push links l).map (·.node)).Nodup := by
  rw [push]
  split
  · exact h
  · next hnew =>
      rw [List.map_append, List.nodup_append']
      refine ⟨h, by simp, ?_⟩
      simpa [List.disjoint_left] using hnew

theorem nodup_foldl_push {links : List Link} (h : (links.map (·.node)).Nodup) (more : List Link) :
    ((more.foldl push links).map (·.node)).Nodup := by
  induction more generalizing links with
  | nil => exact h
  | cons l rest ih => exact ih (nodup_push h l)

/-- When every source has one link at most to every node, a node has one link at most from every
source. -/
theorem nodup_into {table : List (List Link)} (t : Nat)
    (h : ∀ s : Nat, ((table[s]?.getD []).map (·.node)).Nodup) : ((into table t).map (·.node)).Nodup := by
  have hsource : ∀ s : Nat, (((table[s]?.getD []).filter (·.node == t)).map fun _ => s) =
      List.replicate ((table[s]?.getD []).filter (·.node == t)).length s := fun s => List.map_const' ..
  rw [into, List.map_flatMap, List.nodup_flatMap]
  simp only [List.map_map, Function.comp_def]
  constructor
  · intro s _
    rw [hsource, List.nodup_replicate, ← List.countP_eq_length_filter]
    have hcount := List.nodup_iff_count_le_one.mp (h s) t
    rwa [List.count, List.countP_map] at hcount
  · refine List.nodup_range.imp fun hne => ?_
    rw [Function.onFun, hsource, hsource, List.disjoint_left]
    intro x hx hx'
    exact hne ((List.eq_of_mem_replicate hx).symm.trans (List.eq_of_mem_replicate hx'))

/-- The counts of the kinds add up to the number of links. -/
theorem sum_countP_kind (links : List Link) :
    (EdgeKind.all.map fun k => links.countP (·.kind == k)).sum = links.length := by
  induction links with
  | nil => rfl
  | cons l rest ih =>
      simp only [EdgeKind.all, List.map_cons, List.map_nil, List.sum_cons, List.sum_nil,
        List.countP_cons, List.length_cons] at ih ⊢
      cases l.kind <;> simp <;> omega

end Link

namespace Index

variable {ix : Index}

theorem mem_successors_iff (h : ix.WellFormed) {a : NodeId} {e : Edge} :
    e ∈ ix.successors a ↔ e.source = a ∧ ∃ u v, ix.position? a = some u ∧
      ix.position? e.target = some v ∧ ⟨v, e.kind⟩ ∈ ix.out u := by
  rw [successors]
  constructor
  · intro he
    split at he
    · exact absurd he List.not_mem_nil
    · next u hu =>
        obtain ⟨l, hl, rfl⟩ := List.mem_map.mp he
        refine ⟨((position?_eq_some_iff h.sound).mp hu).2, u, l.node, hu, ?_, hl⟩
        exact (position?_eq_some_iff h.sound).mpr ⟨(h.out_lt hl).2, rfl⟩
  · rintro ⟨hsource, u, v, hu, hv, hl⟩
    rw [hu]
    refine List.mem_map.mpr ⟨_, hl, ?_⟩
    rw [((position?_eq_some_iff h.sound).mp hu).2, ((position?_eq_some_iff h.sound).mp hv).2, ← hsource]

theorem mem_predecessors_iff (h : ix.WellFormed) {b : NodeId} {e : Edge} :
    e ∈ ix.predecessors b ↔ e.target = b ∧ e ∈ ix.successors e.source := by
  rw [mem_successors_iff h, predecessors]
  constructor
  · intro he
    split at he
    · exact absurd he List.not_mem_nil
    · next v hv =>
        obtain ⟨l, hl, rfl⟩ := List.mem_map.mp he
        have hl := h.mem_into.mp hl
        have hb := ((position?_eq_some_iff h.sound).mp hv).2
        refine ⟨hb, rfl, l.node, v, ?_, by rwa [hb], hl⟩
        exact (position?_eq_some_iff h.sound).mpr ⟨(h.out_lt hl).1, rfl⟩
  · rintro ⟨rfl, -, u, v, hu, hv, hl⟩
    rw [hv]
    refine List.mem_map.mpr ⟨_, h.mem_into.mpr hl, ?_⟩
    rw [((position?_eq_some_iff h.sound).mp hu).2, ((position?_eq_some_iff h.sound).mp hv).2]

end Index

namespace Workflow

variable (w : Workflow)

/-- No node is declared after itself. -/
theorem ne_of_declares {u v : Nat} {k : EdgeKind} (h : w.Declares u v k) : u ≠ v := by
  cases k with
  | loopBody =>
      have hparent := Index.parent_of_mem_entries (w.beginsAt_iff.mp h.2)
      exact (Index.parent_lt w.index_sound rfl hparent).2
  | _ => exact h.1.ne.symm

theorem nodup_out (u : Nat) : ((w.index.out u).map (·.node)).Nodup := by
  rw [Index.out, w.getElem?_outgoing]
  by_cases hu : u < w.index.size
  · have hplain : ((Placed.links w.index.placed w.index.parents u (w.index.nodeAt u).loop
        (w.declared (w.index.nodeAt u))).map (·.node)).Nodup := by
      rw [Index.links_eq_foldl_push]
      exact Link.nodup_foldl_push (by simp) _
    rw [w.getElem?_plainTable hu, Option.map_some, Option.getD_some, Index.entered]
    split
    · exact Link.nodup_foldl_push hplain _
    · exact hplain
  · have hlength : w.plainTable.length ≤ u := w.length_plainTable ▸ Nat.le_of_not_lt hu
    simp [List.getElem?_eq_none hlength]

theorem nodup_into (v : Nat) : ((w.index.into v).map (·.node)).Nodup := by
  rw [Index.into, w.incoming_eq_map, List.getElem?_map]
  cases (List.range w.index.size)[v]? with
  | none => simp
  | some t => exact Link.nodup_into t w.nodup_out

theorem nodup_target_successors (a : NodeId) : ((w.index.successors a).map (·.target)).Nodup := by
  rw [Index.successors]
  split
  · simp
  · next u _ =>
      have hlt : ∀ v ∈ (w.index.out u).map (·.node), v < w.index.size := by
        intro v hv
        obtain ⟨l, hl, rfl⟩ := List.mem_map.mp hv
        exact (w.index_wellFormed.out_lt hl).2
      have hids := Index.nodup_map_id w.index_wellFormed hlt (w.nodup_out u)
      rwa [List.map_map] at hids ⊢

theorem nodup_source_predecessors (b : NodeId) :
    ((w.index.predecessors b).map (·.source)).Nodup := by
  rw [Index.predecessors]
  split
  · simp
  · next v _ =>
      have hlt : ∀ u ∈ (w.index.into v).map (·.node), u < w.index.size := by
        intro u hu
        obtain ⟨l, hl, rfl⟩ := List.mem_map.mp hu
        exact (w.index_wellFormed.out_lt (w.index_wellFormed.mem_into.mp hl)).1
      have hids := Index.nodup_map_id w.index_wellFormed hlt (w.nodup_into v)
      rwa [List.map_map] at hids ⊢

/-- A node with edges is in the index. -/
theorem exists_mem_nodes {a : NodeId} {u : Nat} (h : w.index.position? a = some u) :
    ∃ n ∈ w.index.nodes, n.id = a := by
  obtain ⟨p, hp, hid⟩ := w.index_sound.position?_eq_some_iff.mp h
  exact ⟨p.node, List.mem_map_of_mem (List.mem_of_getElem? hp), hid⟩

/-- Lists that belong to different nodes, one after the other. -/
theorem nodup_flatMap_nodes (edgesOf : NodeId → List Edge) (owner : Edge → NodeId)
    (hnodup : ∀ a, (edgesOf a).Nodup) (howner : ∀ a, ∀ e ∈ edgesOf a, owner e = a) :
    (w.index.nodes.flatMap fun n => edgesOf n.id).Nodup := by
  rw [List.nodup_flatMap]
  refine ⟨fun n _ => hnodup n.id, ?_⟩
  refine (List.pairwise_map.mp w.nodup_nodes_id).imp fun hne => ?_
  rw [Function.onFun, List.disjoint_left]
  intro e he he'
  exact hne ((howner _ e he).symm.trans (howner _ e he'))

/-- Listed with their sources or with their targets, the edges are the same. -/
theorem flatMap_successors_perm :
    (w.index.nodes.flatMap fun n => w.index.successors n.id).Perm
      (w.index.nodes.flatMap fun n => w.index.predecessors n.id) := by
  have h := w.index_wellFormed
  have hsuccessors := w.nodup_flatMap_nodes w.index.successors (·.source)
    (fun a => (w.nodup_target_successors a).of_map)
    fun a e he => ((Index.mem_successors_iff h).mp he).1
  have hpredecessors := w.nodup_flatMap_nodes w.index.predecessors (·.target)
    (fun b => (w.nodup_source_predecessors b).of_map)
    fun b e he => ((Index.mem_predecessors_iff h).mp he).1
  rw [List.perm_ext_iff_of_nodup hsuccessors hpredecessors]
  intro e
  rw [List.mem_flatMap, List.mem_flatMap]
  constructor
  · rintro ⟨n, -, he⟩
    obtain ⟨hsource, u, v, hu, hv, hl⟩ := (Index.mem_successors_iff h).mp he
    obtain ⟨m, hm, htarget⟩ := w.exists_mem_nodes hv
    exact ⟨m, hm, (Index.mem_predecessors_iff h).mpr ⟨htarget.symm, hsource ▸ he⟩⟩
  · rintro ⟨m, -, he⟩
    obtain ⟨-, he⟩ := (Index.mem_predecessors_iff h).mp he
    obtain ⟨-, u, v, hu, hv, hl⟩ := (Index.mem_successors_iff h).mp he
    obtain ⟨n, hn, hsource⟩ := w.exists_mem_nodes hu
    exact ⟨n, hn, hsource ▸ he⟩

theorem nodes_eq_map : w.index.nodes = w.index.positions.map w.index.nodeAt := by
  apply List.ext_getElem?
  intro i
  rw [Index.nodes, List.getElem?_map, List.getElem?_map, Index.positions]
  by_cases hi : i < w.index.size
  · rw [List.getElem?_range hi, List.getElem?_eq_getElem hi, Option.map_some, Option.map_some,
      Index.nodeAt, List.getElem?_eq_getElem hi]
    rfl
  · have hplaced : w.index.placed[i]? = none := List.getElem?_eq_none (Nat.le_of_not_lt hi)
    have hrange : (List.range w.index.size)[i]? = none := by simpa using hi
    rw [hplaced, hrange]
    rfl

/-- The number of edges is that of the edges listed with their sources. -/
theorem length_flatMap_successors :
    (w.index.nodes.flatMap fun n => w.index.successors n.id).length = w.index.stats.edges := by
  have hsuccessors : ∀ i ∈ w.index.positions,
      (w.index.successors (w.index.nodeAt i).id).length = (w.index.out i).length := by
    intro i hi
    have hposition := Index.position?_nodeAt w.index_wellFormed (List.mem_range.mp hi)
    rw [Index.successors, hposition, List.length_map]
  rw [Index.stats, w.nodes_eq_map, w.outgoing_eq_map, List.flatMap_map, List.length_flatMap,
    List.length_flatten, List.map_map]
  exact congrArg List.sum (List.map_congr_left hsuccessors)

/-- The finished edges are exact: `b` follows `a` by an edge of kind `k` exactly when both are different
nodes of the index and `k` is the first kind under which the workflow declares `b` after `a`, and then
there is one such edge. The edges into a node are the edges out of others, of the same kind, that lead
to it; and both the counts of the kinds and the numbers of incoming edges add up to the number of
edges. -/
theorem mem_successors_iff_declares :
    (∀ a e, e ∈ w.index.successors a ↔ e.source = a ∧ ∃ u v, w.index.position? a = some u ∧
      w.index.position? e.target = some v ∧ u ≠ v ∧ w.Declares u v e.kind ∧
        ∀ j ∈ e.kind.before, ¬ w.Declares u v j) ∧
    (∀ a, ((w.index.successors a).map (·.target)).Nodup) ∧
    (∀ b e, e ∈ w.index.predecessors b ↔ e.target = b ∧ e ∈ w.index.successors e.source) ∧
    (∀ b, ((w.index.predecessors b).map (·.source)).Nodup) ∧
    (w.index.stats.edgesByKind.map (·.2)).sum = w.index.stats.edges ∧
    (w.index.nodes.map fun n => (w.index.predecessors n.id).length).sum = w.index.stats.edges := by
  have h := w.index_wellFormed
  refine ⟨fun a e => ?_, w.nodup_target_successors, fun b e => Index.mem_predecessors_iff h,
    w.nodup_source_predecessors, ?_, ?_⟩
  · rw [Index.mem_successors_iff h]
    simp only [w.mem_out_iff]
    refine and_congr_right fun _ => exists_congr fun u => exists_congr fun v => ?_
    refine and_congr_right fun _ => and_congr_right fun _ => ?_
    exact (and_iff_right_of_imp fun hd => w.ne_of_declares hd.1).symm
  · exact Link.sum_countP_kind w.index.outgoing.flatten
  · rw [← w.length_flatMap_successors, w.flatMap_successors_perm.length_eq, List.length_flatMap]

end Workflow

end FlowScope
