import FlowScope.Order
import FlowScope.Proofs.Discovery
import Mathlib.Data.Set.Finite.List
/-!
Which of two nodes is released first. An edge is followed as long as the node that it leaves is not
held up: where every waiting node waits for another, the first one is released before what leads to
it. The nodes that can hold up `u` when `v` is the first waiting are the cycles that lead to `u` among
the nodes from `v` on, and this tells exactly which edges the order follows.
-/
namespace FlowScope

open Relation

variable {before : Nat → Nat → Bool} {nodes waiting : List Nat} {u v : Nat}

/-- Every waiting node waits for another one. -/
def Stuck (before : Nat → Nat → Bool) (waiting : List Nat) : Prop :=
  ∀ v ∈ waiting, ∃ u ∈ waiting, before u v = true

/-- An edge between two places of a set. -/
def EdgeWithin (before : Nat → Nat → Bool) (places : Set Nat) (u v : Nat) : Prop :=
  u ∈ places ∧ v ∈ places ∧ before u v = true

/-- Some cycle of a set leads to `u` within the set. -/
def FedByCycle (before : Nat → Nat → Bool) (places : Set Nat) (u : Nat) : Prop :=
  ∃ c, TransGen (EdgeWithin before places) c c ∧ ReflTransGen (EdgeWithin before places) c u

/-- The places of a list from `v` on. -/
def restFrom (nodes : List Nat) (v : Nat) : Set Nat :=
  { x | x ∈ nodes ∧ nodes.idxOf v ≤ nodes.idxOf x }

/-- An edge to a place from which on no cycle leads to `u`. -/
def UnheldEdge (before : Nat → Nat → Bool) (nodes : List Nat) (u a b : Nat) : Prop :=
  before a b = true ∧ b ∈ nodes ∧ ¬FedByCycle before (restFrom nodes b) u

/-- All of `places` keeps waiting until `g` is released: a place other than `g` waits for another of
them, and is not the first waiting when all are stuck. -/
structure Guards (before : Nat → Nat → Bool) (nodes : List Nat) (g : Nat) (places : Set Nat) :
    Prop where
  mem : ∀ x ∈ places, x ∈ nodes
  waits : ∀ x ∈ places, x ≠ g → ∃ u ∈ places, before u x = true
  not_first : ∀ x ∈ places, x ≠ g → ∀ waiting : List Nat, waiting.Sublist nodes →
    (∀ y ∈ places, y ∈ waiting) → Stuck before waiting → waiting.head? ≠ some x

/-- A node is released when no waiting one leads to it, or as the first when all are stuck. -/
theorem nextReleased_cases (h : nextReleased before waiting = some v) :
    (∀ u ∈ waiting, before u v = false) ∨ (Stuck before waiting ∧ waiting.head? = some v) := by
  rw [nextReleased, Option.or_eq_some_iff] at h
  rcases h with hfree | ⟨hnone, hhead⟩
  · have hall := List.find?_some hfree
    exact Or.inl (by simpa using hall)
  · refine Or.inr ⟨fun x hx => ?_, hhead⟩
    have hwaits := List.find?_eq_none.mp hnone x hx
    simpa using hwaits

theorem nextReleased_eq_none (h : nextReleased before waiting = none) : waiting = [] := by
  rw [nextReleased, Option.or_eq_none_iff] at h
  exact List.head?_eq_none_iff.mp h.2

/-- Every node is released once. -/
theorem releaseOrder_perm (fuel : Nat) (hfuel : waiting.length ≤ fuel) :
    (releaseOrder before fuel waiting).Perm waiting := by
  induction fuel generalizing waiting with
  | zero =>
      have hnil : waiting = [] := List.eq_nil_of_length_eq_zero (Nat.le_zero.mp hfuel)
      subst hnil
      exact List.Perm.refl _
  | succ fuel ih =>
      rw [releaseOrder]
      cases hnext : nextReleased before waiting with
      | none =>
          rw [nextReleased_eq_none hnext]
      | some v =>
          have hv : v ∈ waiting := nextReleased_mem hnext
          have hlength := List.length_erase_of_mem hv
          have hrest : (releaseOrder before fuel (waiting.erase v)).Perm (waiting.erase v) := by
            apply ih
            omega
          exact (hrest.cons v).trans (List.perm_cons_erase hv).symm

theorem Index.topologicalOrder_perm (ix : Index) (nodes : List Nat) :
    (ix.topologicalOrder nodes).Perm nodes :=
  releaseOrder_perm nodes.length (Nat.le_refl _)

theorem Guards.not_mem {g : Nat} {places : Set Nat} (h : Guards before nodes g places)
    (hnext : nextReleased before nodes = some v) (hv : v ≠ g) : v ∉ places := by
  intro hmem
  rcases nextReleased_cases hnext with hfree | ⟨hstuck, hhead⟩
  · obtain ⟨u, hu, hedge⟩ := h.waits v hmem hv
    rw [hfree u (h.mem u hu)] at hedge
    exact Bool.noConfusion hedge
  · exact h.not_first v hmem hv nodes (List.Sublist.refl _) h.mem hstuck hhead

theorem Guards.erase {g : Nat} {places : Set Nat} (h : Guards before nodes g places)
    (hv : v ∉ places) : Guards before (nodes.erase v) g places where
  mem x hx := (List.mem_erase_of_ne (ne_of_mem_of_not_mem hx hv)).mpr (h.mem x hx)
  waits := h.waits
  not_first x hx hne waiting hsub :=
    h.not_first x hx hne waiting (hsub.trans List.erase_sublist)

/-- A place that guards others is released before them. -/
theorem Guards.idxOf_lt {g x : Nat} {places : Set Nat} (h : Guards before nodes g places)
    (fuel : Nat) (hfuel : nodes.length ≤ fuel) (hx : x ∈ places) (hne : x ≠ g) :
    (releaseOrder before fuel nodes).idxOf g < (releaseOrder before fuel nodes).idxOf x := by
  induction fuel generalizing nodes with
  | zero =>
      have hnil : nodes = [] := List.eq_nil_of_length_eq_zero (Nat.le_zero.mp hfuel)
      subst hnil
      exact absurd (h.mem x hx) List.not_mem_nil
  | succ fuel ih =>
      rw [releaseOrder]
      cases hnext : nextReleased before nodes with
      | none =>
          have hmem := h.mem x hx
          rw [nextReleased_eq_none hnext] at hmem
          exact absurd hmem List.not_mem_nil
      | some v =>
          by_cases hv : v = g
          · subst hv
            rw [List.idxOf_cons_self, List.idxOf_cons_ne _ (Ne.symm hne)]
            exact Nat.succ_pos _
          · -- None of the guarded places goes first, so all of them keep waiting.
            have hout : v ∉ places := h.not_mem hnext hv
            have hvx : v ≠ x := (ne_of_mem_of_not_mem hx hout).symm
            have hlength := List.length_erase_of_mem (nextReleased_mem hnext)
            rw [List.idxOf_cons_ne _ hv, List.idxOf_cons_ne _ hvx]
            exact Nat.succ_lt_succ (ih (h.erase hout) (by omega))

/-- Steps that keep to a strict order never come back. -/
theorem not_transGen_self {α : Type} {R S : α → α → Prop} [IsTrans α S] [Std.Irrefl S]
    (h : ∀ a b, R a b → S a b) (p : α) : ¬TransGen R p p := by
  intro hcycle
  have hself := TransGen.mono h p p hcycle
  rw [transGen_eq_self] at hself
  exact irrefl p hself

theorem EdgeWithin.mono {places more : Set Nat} (hsub : places ⊆ more)
    (h : EdgeWithin before places u v) : EdgeWithin before more u v :=
  ⟨hsub h.1, hsub h.2.1, h.2.2⟩

theorem FedByCycle.mono {places more : Set Nat} (hsub : places ⊆ more)
    (h : FedByCycle before places u) : FedByCycle before more u := by
  obtain ⟨c, hcycle, hway⟩ := h
  have hstep : EdgeWithin before places ≤ EdgeWithin before more := fun _ _ => EdgeWithin.mono hsub
  exact ⟨c, TransGen.mono hstep c c hcycle, ReflTransGen.mono hstep c u hway⟩

/-- What is fed by a cycle comes after something else that is. -/
theorem FedByCycle.exists_before {places : Set Nat} (h : FedByCycle before places v) :
    v ∈ places ∧ ∃ u, FedByCycle before places u ∧ before u v = true := by
  obtain ⟨c, hcycle, hway⟩ := h
  rcases ReflTransGen.cases_tail hway with rfl | ⟨u, hu, hstep⟩
  · obtain ⟨u, hu, hstep⟩ := TransGen.tail'_iff.mp hcycle
    exact ⟨hstep.2.1, u, ⟨_, hcycle, hu⟩, hstep.2.2⟩
  · exact ⟨hstep.2.1, u, ⟨c, hcycle, hu⟩, hstep.2.2⟩

/-- Going back for ever in a finite set, some place comes twice. -/
theorem fedByCycle_of_iterate {places : Set Nat} (hfinite : places.Finite) {back : Nat → Nat}
    (hstep : ∀ n, EdgeWithin before places (back^[n + 1] u) (back^[n] u)) :
    FedByCycle before places u := by
  have hway : ∀ m k, ReflTransGen (EdgeWithin before places) (back^[m + k] u) (back^[m] u) := by
    intro m k
    induction k with
    | zero => exact .refl
    | succ k ih => exact .head (hstep (m + k)) ih
  have hcycle : ∀ m n, m < n → back^[m] u = back^[n] u → FedByCycle before places u := by
    intro m n hlt heq
    obtain ⟨k, rfl⟩ := Nat.exists_eq_add_of_lt hlt
    have haround := TransGen.head' (hstep (m + k)) (hway m k)
    rw [← heq] at haround
    have hfrom := hway 0 m
    rw [Nat.zero_add] at hfrom
    exact ⟨back^[m] u, haround, hfrom⟩
  obtain ⟨m, -, n, -, hne, heq⟩ := Set.infinite_univ.exists_ne_map_eq_of_mapsTo
    (f := fun n => back^[n] u) (fun n _ => (hstep n).2.1) hfinite
  rcases Nat.lt_or_gt_of_ne hne with hlt | hlt
  · exact hcycle m n hlt heq
  · exact hcycle n m hlt heq.symm

/-- Where all are stuck, every one is fed by a cycle. -/
theorem Stuck.fedByCycle (h : Stuck before waiting) (hu : u ∈ waiting) :
    FedByCycle before { x | x ∈ waiting } u := by
  have hback : ∀ v, ∃ p, v ∈ waiting → p ∈ waiting ∧ before p v = true := by
    intro v
    by_cases hv : v ∈ waiting
    · obtain ⟨p, hp, hedge⟩ := h v hv
      exact ⟨p, fun _ => ⟨hp, hedge⟩⟩
    · exact ⟨v, fun hmem => absurd hmem hv⟩
  choose back hback using hback
  have hmem : ∀ n, back^[n] u ∈ waiting := by
    intro n
    induction n with
    | zero => exact hu
    | succ n ih =>
        rw [Function.iterate_succ_apply']
        exact (hback _ ih).1
  apply fedByCycle_of_iterate waiting.finite_toSet
  intro n
  refine ⟨hmem (n + 1), hmem n, ?_⟩
  rw [Function.iterate_succ_apply']
  exact (hback _ (hmem n)).2

/-- Without cycles, going back from any node of a list comes to one that none of the list leads to. -/
theorem exists_source (hacyclic : ∀ c, ¬TransGen (EdgeWithin before { x | x ∈ nodes }) c c)
    (hv : v ∈ nodes) : ∃ r ∈ nodes, (∀ u ∈ nodes, before u r = false) ∧
      ReflTransGen (EdgeWithin before { x | x ∈ nodes }) r v := by
  classical
  by_contra hnone
  push Not at hnone
  let behind := nodes.filter fun x => ReflTransGen (EdgeWithin before { x | x ∈ nodes }) x v
  have hbehind : ∀ x, x ∈ behind ↔
      x ∈ nodes ∧ ReflTransGen (EdgeWithin before { x | x ∈ nodes }) x v := fun x => by
    simp [behind]
  -- No source leads to `v`, so each node that leads to it comes after another such node.
  have hstuck : Stuck before behind := by
    intro x hx
    obtain ⟨hmem, hway⟩ := (hbehind x).mp hx
    by_contra hfree
    push Not at hfree
    refine hnone x hmem (fun u hu => ?_) hway
    by_contra hedge
    rw [Bool.not_eq_false] at hedge
    exact hfree u ((hbehind u).mpr ⟨hu, .head ⟨hu, hmem, hedge⟩ hway⟩) hedge
  obtain ⟨c, hcycle, -⟩ := hstuck.fedByCycle ((hbehind v).mpr ⟨hv, .refl⟩)
  have hsub : { x | x ∈ behind } ⊆ { x | x ∈ nodes } := fun x hx => ((hbehind x).mp hx).1
  exact hacyclic c (TransGen.mono (fun a b hab => hab.mono hsub) c c hcycle)

/-- What waits behind a node comes after it in the list. -/
theorem subset_restFrom_of_head (hnodup : nodes.Nodup) (hsub : waiting.Sublist nodes)
    (hhead : waiting.head? = some v) : { x | x ∈ waiting } ⊆ restFrom nodes v := by
  obtain ⟨rest, rfl⟩ := List.head?_eq_some_iff.mp hhead
  intro x hx
  refine ⟨hsub.subset hx, ?_⟩
  rcases List.mem_cons.mp hx with rfl | hx
  · exact Nat.le_refl _
  · obtain ⟨first, second, rfl, hfirst, hsecond⟩ := List.cons_sublist_iff.mp hsub
    have hnot : x ∉ first := fun hmem =>
      (List.nodup_append'.mp hnodup).2.2 hmem (hsecond.subset hx)
    rw [List.idxOf_append_of_mem hfirst, List.idxOf_append_of_notMem hnot]
    have hlt := List.idxOf_lt_length_of_mem hfirst
    omega

theorem guards_unheld (hnodup : nodes.Nodup) (hu : u ∈ nodes) :
    Guards before nodes u { x | ReflTransGen (UnheldEdge before nodes u) u x } := by
  refine ⟨fun x hx => ?_, fun x hx hxu => ?_, fun x hx hxu waiting hsub hall hstuck hhead => ?_⟩
  · rcases ReflTransGen.cases_tail hx with rfl | ⟨_, _, hstep⟩
    · exact hu
    · exact hstep.2.1
  · rcases ReflTransGen.cases_tail hx with heq | ⟨a, ha, hstep⟩
    · exact absurd heq hxu
    · exact ⟨a, ha, hstep.1⟩
  · rcases ReflTransGen.cases_tail hx with heq | ⟨_, _, hstep⟩
    · exact absurd heq hxu
    · -- All that waits is from `x` on, so a cycle there leads to `u`.
      have hfed := hstuck.fedByCycle (hall u .refl)
      exact hstep.2.2 (hfed.mono (subset_restFrom_of_head hnodup hsub hhead))

theorem guards_fedByCycle (hnodup : nodes.Nodup) (hv : v ∈ nodes) :
    Guards before nodes v { x | x = v ∨ FedByCycle before (restFrom nodes v) x } := by
  refine ⟨fun x hx => ?_, fun x hx hxv => ?_, fun x hx hxv waiting hsub hall _ hhead => ?_⟩
  · rcases hx with rfl | hx
    · exact hv
    · exact hx.exists_before.1.1
  · obtain ⟨-, a, ha, hedge⟩ := (hx.resolve_left hxv).exists_before
    exact ⟨a, Or.inr ha, hedge⟩
  · -- The first waiting node comes neither after `v` in the list nor before it.
    obtain ⟨hmem, hle⟩ := (hx.resolve_left hxv).exists_before.1
    have hge := (subset_restFrom_of_head hnodup hsub hhead (hall v (Or.inl rfl))).2
    exact hxv ((List.idxOf_inj hmem).mp (Nat.le_antisymm hge hle))

namespace Index

variable (ix : Index)

/-- A node comes before what it leads to along edges that no cycle holds up. -/
theorem idxOf_lt_of_unheld (hnodup : nodes.Nodup) (hu : u ∈ nodes) (hne : v ≠ u)
    (hway : ReflTransGen (UnheldEdge ix.hasEdge nodes u) u v) :
    (ix.topologicalOrder nodes).idxOf u < (ix.topologicalOrder nodes).idxOf v :=
  (guards_unheld hnodup hu).idxOf_lt nodes.length (Nat.le_refl _) hway hne

/-- A node comes before what is fed by a cycle among the nodes from it on. -/
theorem idxOf_lt_of_fedByCycle (hnodup : nodes.Nodup) (hv : v ∈ nodes) (hne : u ≠ v)
    (hfed : FedByCycle ix.hasEdge (restFrom nodes v) u) :
    (ix.topologicalOrder nodes).idxOf v < (ix.topologicalOrder nodes).idxOf u :=
  (guards_fedByCycle hnodup hv).idxOf_lt nodes.length (Nat.le_refl _) (Or.inr hfed) hne

/-- Where no cycle leads to a node, it comes before all that it leads to. -/
theorem idxOf_lt_of_not_fedByCycle (hnodup : nodes.Nodup) (hu : u ∈ nodes) (hne : v ≠ u)
    (hcycle : ¬FedByCycle ix.hasEdge { x | x ∈ nodes } u)
    (hway : ReflTransGen (EdgeWithin ix.hasEdge { x | x ∈ nodes }) u v) :
    (ix.topologicalOrder nodes).idxOf u < (ix.topologicalOrder nodes).idxOf v := by
  apply ix.idxOf_lt_of_unheld hnodup hu hne
  refine ReflTransGen.mono (fun a b hedge => ?_) u v hway
  refine ⟨hedge.2.2, hedge.2.1, fun hfed => hcycle (hfed.mono ?_)⟩
  intro x hx
  exact hx.1

/-- The order follows exactly the edges of which the source is not fed by a cycle among the nodes from
the end of the edge on. -/
theorem idxOf_lt_iff_of_hasEdge (hnodup : nodes.Nodup) (hu : u ∈ nodes) (hv : v ∈ nodes)
    (hedge : ix.hasEdge u v = true) :
    (ix.topologicalOrder nodes).idxOf u < (ix.topologicalOrder nodes).idxOf v ↔
      ¬FedByCycle ix.hasEdge (restFrom nodes v) u := by
  constructor
  · intro hlt hfed
    by_cases hne : u = v
    · subst hne
      exact Nat.lt_irrefl _ hlt
    · exact Nat.lt_asymm hlt (ix.idxOf_lt_of_fedByCycle hnodup hv hne hfed)
  · intro hfree
    have hne : v ≠ u := by
      rintro rfl
      have hself : v ∈ restFrom nodes v := ⟨hv, Nat.le_refl _⟩
      exact hfree ⟨v, .single ⟨hself, hself, hedge⟩, .refl⟩
    exact ix.idxOf_lt_of_unheld hnodup hu hne (.single ⟨hedge, hv, hfree⟩)

end Index

/-- The order has every node that is discovered before a target once. In it `u` comes before what it
leads to along edges to nodes such that no cycle among the nodes discovered from there on leads to `u`;
and before the end of a single edge only then. -/
theorem Workflow.topologicalOrder_follows (w : Workflow) {t u : Nat} {found : List Nat}
    (hfound : (w.index.discover t).map (·.1) = found) (hu : u ∈ found) :
    (w.index.topologicalOrder found).Perm found ∧
      (∀ v, v ≠ u → ReflTransGen (UnheldEdge w.index.hasEdge found u) u v →
        (w.index.topologicalOrder found).idxOf u < (w.index.topologicalOrder found).idxOf v) ∧
      ∀ v ∈ found, w.index.hasEdge u v = true →
        ((w.index.topologicalOrder found).idxOf u < (w.index.topologicalOrder found).idxOf v ↔
          ¬FedByCycle w.index.hasEdge (restFrom found v) u) := by
  have hnodup : found.Nodup := by
    rw [← hfound, Index.map_fst_discover]
    exact Index.nodup_discovered
  refine ⟨w.index.topologicalOrder_perm found, fun v hne hway => ?_, fun v hv hedge => ?_⟩
  · exact w.index.idxOf_lt_of_unheld hnodup hu hne hway
  · exact w.index.idxOf_lt_iff_of_hasEdge hnodup hu hv hedge

namespace ReleaseOrderWitness

/-- The second node waits for the fourth, which is on a circle with the third. -/
def workflow : Workflow where
  nodes := [
    { id := ⟨"1"⟩, type := .code, next := [⟨"2"⟩, ⟨"3"⟩] },
    { id := ⟨"2"⟩, type := .code, next := [⟨"5"⟩] },
    { id := ⟨"3"⟩, type := .code, next := [⟨"4"⟩] },
    { id := ⟨"4"⟩, type := .code, next := [⟨"3"⟩, ⟨"2"⟩] },
    { id := ⟨"5"⟩, type := .finish }]

theorem topologicalOrder_follows_circle :
    (workflow.index.discover 4).map (·.1) = [0, 1, 2, 3] ∧ 3 ∈ [0, 1, 2, 3] ∧
      ((workflow.index.topologicalOrder [0, 1, 2, 3]).idxOf 3 <
          (workflow.index.topologicalOrder [0, 1, 2, 3]).idxOf 1 ↔
        ¬FedByCycle workflow.index.hasEdge (restFrom [0, 1, 2, 3] 1) 3) := by
  have hfound : (workflow.index.discover 4).map (·.1) = [0, 1, 2, 3] := by decide
  have hu : 3 ∈ [0, 1, 2, 3] := by decide
  obtain ⟨-, -, hexact⟩ := workflow.topologicalOrder_follows hfound hu
  exact ⟨hfound, hu, hexact 1 (by decide) (by decide)⟩

/-- The second node comes before the fourth, which it cannot reach. -/
theorem not_topologicalOrder_follows_reachability :
    ¬ ∀ (w : Workflow) (t u v : Nat) (found : List Nat),
      (w.index.discover t).map (·.1) = found → u ∈ found → v ∈ found →
      ReflTransGen (EdgeWithin w.index.hasEdge { x | x ∈ found }) u v →
      ¬ReflTransGen (EdgeWithin w.index.hasEdge { x | x ∈ found }) v u →
      (w.index.topologicalOrder found).idxOf u < (w.index.topologicalOrder found).idxOf v := by
  intro hclaim
  have hway : ReflTransGen (EdgeWithin workflow.index.hasEdge { x | x ∈ [0, 1, 2, 3] }) 3 1 :=
    .single ⟨by simp, by simp, by decide⟩
  have hback : ¬ReflTransGen (EdgeWithin workflow.index.hasEdge { x | x ∈ [0, 1, 2, 3] }) 1 3 := by
    intro hreach
    rcases ReflTransGen.cases_head hreach with heq | ⟨b, ⟨-, hb, hedge⟩, -⟩
    · exact absurd heq (by decide)
    · have hnone : ∀ b ∈ [0, 1, 2, 3], workflow.index.hasEdge 1 b = false := by decide
      rw [hnone b hb] at hedge
      exact Bool.noConfusion hedge
  have hlt := hclaim workflow 4 3 1 [0, 1, 2, 3] (by decide) (by decide) (by decide) hway hback
  exact absurd hlt (by decide)

end ReleaseOrderWitness

end FlowScope
