import FlowScope.Predecessors
import FlowScope.Proofs.Declared
import FlowScope.Proofs.Explored
import Mathlib.Data.List.Chain
import Mathlib.Logic.Relation
/-!
Which nodes are discovered before a target, and which of them are marked as reached through failures
only. A node is discovered when it lies on a way from a root to the target that meets the target only
at its end; it is not marked when there is such a way without edges of failures.
-/
namespace FlowScope

open Relation

namespace Index

variable (ix : Index)

/-- An edge of an accepted kind leads from `u` to `v`. -/
def Leads (accept : EdgeKind → Bool) (u v : Nat) : Prop :=
  ∃ k, accept k = true ∧ ⟨v, k⟩ ∈ ix.out u

/-- Some root leads to `p` in steps of `R` that do not meet `t`. -/
def FromRoot (R : Nat → Nat → Prop) (t p : Nat) : Prop :=
  ∃ r ∈ ix.roots, r ≠ t ∧ ReflTransGen (fun u v => R u v ∧ v ≠ t) r p

/-- `p` lies on a way from a root to `t` in steps of `R` that meets `t` only at its end; `way` is that
way without its end. -/
def OnWay (R : Nat → Nat → Prop) (t p : Nat) : Prop :=
  ∃ way : List Nat, (∃ r ∈ ix.roots, way.head? = some r) ∧ (way ++ [t]).IsChain R ∧
    t ∉ way ∧ p ∈ way

variable {ix} {R : Nat → Nat → Prop} {t : Nat}

theorem mem_heads_iff {accept : EdgeKind → Bool} {links : List Link} {v : Nat} :
    v ∈ heads accept links ↔ ∃ k, accept k = true ∧ ⟨v, k⟩ ∈ links := by
  simp only [heads, List.mem_map, List.mem_filter]
  constructor
  · rintro ⟨⟨_, k⟩, ⟨hmem, haccept⟩, rfl⟩
    exact ⟨k, haccept, hmem⟩
  · rintro ⟨k, haccept, hmem⟩
    exact ⟨⟨v, k⟩, ⟨hmem, haccept⟩, rfl⟩

theorem mem_heads_out_iff {accept : EdgeKind → Bool} {u v : Nat} :
    v ∈ heads accept (ix.out u) ↔ ix.Leads accept u v :=
  mem_heads_iff

theorem mem_heads_into_iff (h : ix.WellFormed) {accept : EdgeKind → Bool} {u v : Nat} :
    u ∈ heads accept (ix.into v) ↔ ix.Leads accept u v := by
  simp only [mem_heads_iff, h.mem_into, Leads]

theorem Leads.lt (h : ix.WellFormed) {accept : EdgeKind → Bool} {u v : Nat}
    (hleads : ix.Leads accept u v) : u < ix.size ∧ v < ix.size := by
  obtain ⟨k, -, hmem⟩ := hleads
  exact h.out_lt hmem

theorem hasEdge_iff_leads {u v : Nat} : ix.hasEdge u v = true ↔ ix.Leads (fun _ => true) u v := by
  rw [hasEdge, List.any_eq_true]
  constructor
  · intro hedge
    obtain ⟨⟨_, k⟩, hmem, hnode⟩ := hedge
    obtain rfl : _ = v := by simpa using hnode
    exact ⟨k, rfl, hmem⟩
  · intro hleads
    obtain ⟨k, -, hmem⟩ := hleads
    exact ⟨_, hmem, by simp⟩

/-- No roots are the nodes other than starts that something leads to. -/
theorem isRoot_eq_false_iff (h : ix.WellFormed) {p : Nat} :
    ix.isRoot p = false ↔ (∃ u, ix.Leads (fun _ => true) u p) ∧ (ix.nodeAt p).type ≠ .start := by
  rw [isRoot, Bool.or_eq_false_iff, List.isEmpty_eq_false_iff, beq_eq_false_iff_ne]
  apply and_congr_left'
  constructor
  · intro hinto
    obtain ⟨⟨u, k⟩, hmem⟩ := List.exists_mem_of_ne_nil _ hinto
    exact ⟨u, k, rfl, h.mem_into.mp hmem⟩
  · intro hleads
    obtain ⟨u, k, -, hmem⟩ := hleads
    exact List.ne_nil_of_mem (h.mem_into.mpr hmem)

theorem lt_of_mem_heads_out (h : ix.WellFormed) {accept : EdgeKind → Bool} (u : Nat) :
    ∀ v ∈ heads accept (ix.out u), v < ix.size :=
  fun _ hv => ((mem_heads_out_iff.mp hv).lt h).2

theorem lt_of_mem_roots {r : Nat} (hr : r ∈ ix.roots) : r < ix.size := by
  rw [roots, List.mem_filter, positions, List.mem_range] at hr
  exact hr.1

end Index

/-- What a walk reaches are the ends of chains of allowed places. -/
theorem reaches_iff {next : Nat → List Nat} {allowed : Nat → Bool} {origins : List Nat} {v : Nat} :
    Reaches next allowed origins v ↔ ∃ r ∈ origins, allowed r = true ∧
      ReflTransGen (fun a b => b ∈ next a ∧ allowed b = true) r v := by
  constructor
  · intro h
    induction h with
    | origin hmem hallowed => exact ⟨_, hmem, hallowed, .refl⟩
    | step _ hnext hallowed ih =>
        obtain ⟨r, hr, hr', hchain⟩ := ih
        exact ⟨r, hr, hr', hchain.tail ⟨hnext, hallowed⟩⟩
  · rintro ⟨r, hr, hr', hchain⟩
    induction hchain with
    | refl => exact .origin hr hr'
    | tail _ hstep ih => exact .step ih hstep.1 hstep.2

namespace Index

variable {ix : Index} {R : Nat → Nat → Prop} {t : Nat}

theorem reaches_out_iff {accept : EdgeKind → Bool} {v : Nat} :
    Reaches (fun u => heads accept (ix.out u)) (· != t) ix.roots v ↔
      ix.FromRoot (ix.Leads accept) t v := by
  simp only [reaches_iff, FromRoot, mem_heads_out_iff, bne_iff_ne]

/-- The target can be reached from exactly the places that are found on the way back. -/
theorem mem_reaching_iff (h : ix.WellFormed) {accept : EdgeKind → Bool} {v : Nat} :
    v ∈ ix.reaching accept t ↔ v ≠ t ∧ TransGen (ix.Leads accept) v t := by
  have hlt : ∀ u, ∀ v ∈ heads accept (ix.into u), v < ix.size := fun u v hv =>
    (((mem_heads_into_iff h).mp hv).lt h).1
  rw [reaching, mem_explore_iff hlt (hlt t)]
  constructor
  · intro hreach
    induction hreach with
    | origin hmem hne =>
        exact ⟨by simpa using hne, .single ((mem_heads_into_iff h).mp hmem)⟩
    | step _ hmem hne ih =>
        exact ⟨by simpa using hne, .head ((mem_heads_into_iff h).mp hmem) ih.2⟩
  · rintro ⟨hne, hchain⟩
    induction hchain using TransGen.head_induction_on with
    | single hleads => exact .origin ((mem_heads_into_iff h).mpr hleads) (by simpa using hne)
    | @head u v hleads _ ih =>
        have hu : u ∈ heads accept (ix.into v) := (mem_heads_into_iff h).mpr hleads
        by_cases hv : v = t
        · exact .origin (hv ▸ hu) (by simpa using hne)
        · exact .step (ih hv) hu (by simpa using hne)

theorem mem_normallyReached_iff (h : ix.WellFormed) {v : Nat} :
    v ∈ ix.normallyReached t ↔ ix.FromRoot (ix.Leads EdgeKind.isNormal) t v := by
  rw [normallyReached, mem_explore_iff (lt_of_mem_heads_out h) fun r hr => lt_of_mem_roots hr,
    reaches_out_iff]

theorem nodup_discovered : (ix.discovered t).Nodup := by
  rw [discovered]
  split
  · exact List.nodup_nil
  · exact nodup_explore _ _ _ List.nodup_nil

theorem map_fst_discover : (ix.discover t).map (·.1) = ix.discovered t := by
  rw [discover, List.map_map]
  exact List.map_id _

/-- Discovered are the nodes that a root leads to without meeting the target, and that lead to the
target. -/
theorem mem_discovered_iff (h : ix.WellFormed) {p : Nat} :
    p ∈ ix.discovered t ↔ ix.isRoot t = false ∧ p ≠ t ∧
      ix.FromRoot (ix.Leads fun _ => true) t p ∧ TransGen (ix.Leads fun _ => true) p t := by
  rw [discovered]
  split
  · next hroot => simp [hroot]
  · next hroot =>
      have huseful : ∀ v, (ix.reaching (fun _ => true) t).contains v = true ↔
          v ≠ t ∧ TransGen (ix.Leads fun _ => true) v t := fun v => by
        rw [List.contains_iff_mem, mem_reaching_iff h]
      rw [mem_explore_iff (lt_of_mem_heads_out h) fun r hr => lt_of_mem_roots hr, ← reaches_out_iff]
      simp only [Bool.not_eq_true] at hroot
      simp only [hroot, true_and]
      constructor
      · intro hreach
        induction hreach with
        | origin hmem hallowed =>
            obtain ⟨hne, hchain⟩ := (huseful _).mp hallowed
            exact ⟨hne, .origin hmem (by simpa using hne), hchain⟩
        | step _ hmem hallowed ih =>
            obtain ⟨hne, hchain⟩ := (huseful _).mp hallowed
            exact ⟨hne, .step ih.2.1 hmem (by simpa using hne), hchain⟩
      · rintro ⟨-, hreach, hchain⟩
        induction hreach with
        | origin hmem hne => exact .origin hmem ((huseful _).mpr ⟨by simpa using hne, hchain⟩)
        | step hreach hmem hne ih =>
            -- What leads to a useful place is useful, as long as it is not the target.
            have hchain' := TransGen.head (mem_heads_out_iff.mp hmem) hchain
            exact .step (ih hchain') hmem ((huseful _).mpr ⟨by simpa using hne, hchain⟩)

theorem transGen_of_isChain {p : Nat} {after : List Nat} (h : (p :: after ++ [t]).IsChain R) :
    TransGen R p t := by
  induction after generalizing p with
  | nil => exact .single (by simpa using h)
  | cons q rest ih =>
      rw [List.cons_append, List.cons_append, List.isChain_cons_cons] at h
      exact .head h.1 (ih h.2)

theorem reflTransGen_of_isChain {r p : Nat} {way : List Nat} (h : (r :: way).IsChain R)
    (ht : t ∉ way) (hp : p ∈ r :: way) : ReflTransGen (fun u v => R u v ∧ v ≠ t) r p := by
  induction way generalizing r with
  | nil =>
      obtain rfl : p = r := by simpa using hp
      exact .refl
  | cons q rest ih =>
      rw [List.isChain_cons_cons] at h
      rw [List.mem_cons, not_or] at ht
      rcases List.mem_cons.mp hp with rfl | hp
      · exact .refl
      · exact .head ⟨h.1, Ne.symm ht.1⟩ (ih h.2 ht.2 hp)

/-- A way to the target can be cut where it meets the target first. -/
theorem exists_isChain_of_transGen {p : Nat} (hp : p ≠ t) (h : TransGen R p t) :
    ∃ after, (p :: after ++ [t]).IsChain R ∧ t ∉ p :: after := by
  induction h using TransGen.head_induction_on with
  | single hstep => exact ⟨[], by simpa using hstep, by simpa using hp.symm⟩
  | @head u v hstep _ ih =>
      by_cases hv : v = t
      · subst hv
        exact ⟨[], by simpa using hstep, by simpa using hp.symm⟩
      · obtain ⟨after, hchain, hnot⟩ := ih hv
        exact ⟨v :: after, List.isChain_cons_cons.mpr ⟨hstep, hchain⟩, by
          simpa [hp.symm] using hnot⟩

theorem onWay_iff {p : Nat} : ix.OnWay R t p ↔ p ≠ t ∧ ix.FromRoot R t p ∧ TransGen R p t := by
  constructor
  · rintro ⟨way, ⟨r, hr, hhead⟩, hchain, hnot, hp⟩
    refine ⟨fun heq => hnot (heq ▸ hp), ⟨r, hr, ?_⟩, ?_⟩
    · obtain ⟨rest, rfl⟩ := List.head?_eq_some_iff.mp hhead
      rw [List.mem_cons, not_or] at hnot
      have hway : (r :: rest).IsChain R := hchain.left_of_append
      exact ⟨Ne.symm hnot.1, reflTransGen_of_isChain hway hnot.2 hp⟩
    · obtain ⟨first, after, rfl⟩ := List.append_of_mem hp
      rw [List.append_assoc] at hchain
      exact transGen_of_isChain hchain.right_of_append
  · rintro ⟨hp, ⟨r, hr, hrt, hfrom⟩, hto⟩
    have hwhole : ∃ rest, (r :: rest ++ [t]).IsChain R ∧ t ∉ r :: rest ∧ p ∈ r :: rest := by
      clear hr
      induction hfrom using ReflTransGen.head_induction_on with
      | refl =>
          obtain ⟨after, hchain, hnot⟩ := exists_isChain_of_transGen hp hto
          exact ⟨after, hchain, hnot, List.mem_cons_self⟩
      | @head u v hstep _ ih =>
          obtain ⟨rest, hchain, hnot, hmem⟩ := ih hstep.2
          exact ⟨v :: rest, List.isChain_cons_cons.mpr ⟨hstep.1, hchain⟩, by
            simpa [hrt.symm] using hnot, List.mem_cons_of_mem _ hmem⟩
    obtain ⟨rest, hchain, hnot, hmem⟩ := hwhole
    exact ⟨r :: rest, ⟨r, hr, rfl⟩, hchain, hnot, hmem⟩

/-- The mark of a discovered node is missing exactly on the ways without edges of failures. -/
theorem eq_false_iff_of_mem_discover (h : ix.WellFormed) {p : Nat} {viaException : Bool}
    (hp : (p, viaException) ∈ ix.discover t) :
    viaException = false ↔ ix.OnWay (ix.Leads EdgeKind.isNormal) t p := by
  simp only [discover, List.mem_map, Prod.mk.injEq] at hp
  obtain ⟨p, -, rfl, rfl⟩ := hp
  rw [onWay_iff, Bool.not_eq_false', Bool.and_eq_true, List.contains_iff_mem, List.contains_iff_mem,
    mem_normallyReached_iff h, mem_reaching_iff h]
  tauto

theorem OnWay.mono {S : Nat → Nat → Prop} (hsub : ∀ u v, R u v → S u v) {p : Nat}
    (h : ix.OnWay R t p) : ix.OnWay S t p := by
  obtain ⟨way, hroot, hchain, hnot, hp⟩ := h
  exact ⟨way, hroot, hchain.imp hsub, hnot, hp⟩

/-- Discovered are the nodes on ways from the roots to the target. -/
theorem mem_discovered_iff_onWay (h : ix.WellFormed) (ht : ix.isRoot t = false) {p : Nat} :
    p ∈ ix.discovered t ↔ ix.OnWay (ix.Leads fun _ => true) t p := by
  rw [mem_discovered_iff h, onWay_iff, ht]
  exact and_iff_right rfl

end Index

/-- A declared edge is there, of the kind that it is declared under first. -/
theorem Workflow.leads_of_declares (w : Workflow) {u v : Nat} {k : EdgeKind}
    (h : w.Declares u v k) : w.index.Leads (fun _ => true) u v := by
  obtain ⟨j, hj, hfirst⟩ := EdgeKind.exists_first (P := w.Declares u v) h
  exact ⟨j, rfl, w.mem_out_iff.mpr ⟨hj, hfirst⟩⟩

theorem EdgeKind.isNormal_eq : EdgeKind.isNormal = (· != .exception) := by
  funext k
  cases k <;> rfl

/-- A node on a way to the target without edges of failures is discovered, and these are the ones among
the discovered nodes that have no mark. -/
theorem Workflow.mem_discover_unmarked (w : Workflow) {t : Nat} (ht : w.index.isRoot t = false) :
    (∀ p viaException, (p, viaException) ∈ w.index.discover t →
      (viaException = false ↔ w.index.OnWay (w.index.Leads (· != .exception)) t p)) ∧
    ∀ p, w.index.OnWay (w.index.Leads (· != .exception)) t p →
      ∃ viaException, (p, viaException) ∈ w.index.discover t := by
  constructor
  · intro p viaException hp
    rw [← EdgeKind.isNormal_eq]
    exact Index.eq_false_iff_of_mem_discover w.index_wellFormed hp
  · intro p hp
    have hany : w.index.OnWay (w.index.Leads fun _ => true) t p := by
      apply hp.mono
      intro u v hleads
      obtain ⟨k, -, hk⟩ := hleads
      exact ⟨k, rfl, hk⟩
    have hfound := (Index.mem_discovered_iff_onWay w.index_wellFormed ht).mpr hany
    rw [← Index.map_fst_discover] at hfound
    obtain ⟨⟨_, viaException⟩, hmem, rfl⟩ := List.mem_map.mp hfound
    exact ⟨viaException, hmem⟩

namespace DiscoveryWitness

/-- The first node hands over to the third when it fails. -/
def workflow : Workflow where
  nodes := [
    { id := ⟨"1"⟩, type := .start, next := [⟨"2"⟩]
      config := { failure := some ⟨some .executeFlow, [⟨"3"⟩]⟩ } },
    { id := ⟨"2"⟩, type := .code, next := [⟨"4"⟩] },
    { id := ⟨"3"⟩, type := .code, next := [⟨"4"⟩] },
    { id := ⟨"4"⟩, type := .finish }]

/-- The third node has the mark, and lies on no way without edges of failures. -/
theorem mem_discover_unmarked_handler :
    workflow.index.isRoot 3 = false ∧ (2, true) ∈ workflow.index.discover 3 ∧
      ¬workflow.index.OnWay (workflow.index.Leads (· != .exception)) 3 2 := by
  have ht : workflow.index.isRoot 3 = false := by decide
  have hp : (2, true) ∈ workflow.index.discover 3 := by decide
  have hmark := (workflow.mem_discover_unmarked ht).1 2 true hp
  exact ⟨ht, hp, fun hway => Bool.noConfusion (hmark.mpr hway)⟩

end DiscoveryWitness

end FlowScope
