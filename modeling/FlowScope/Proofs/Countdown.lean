import FlowScope.Proofs.ReleaseOrder
import Mathlib.Data.Finset.Max
/-!
The order by counting. For every node of a list the edges into it are counted; where none is left the
node is ready. The first of the ready ones is released, or the first of those that still wait where
none is ready, and the edges out of it are taken off the counts. No more edges are taken off than have
been counted, and the nodes are released in the order that follows the edges.
-/
namespace FlowScope

/-- How far the counts have come. Nodes are known by their ranks in the list. -/
structure Countdown where
  /-- The edges into a node that have not been taken off. -/
  counts : Nat → Nat
  ready : Finset Nat
  waiting : Finset Nat

namespace Countdown

variable (ix : Index) (nodes : List Nat)

/-- Does an edge lead to the node of a rank? -/
def leadsTo (r : Nat) (l : Link) : Bool := nodes.idxOf? l.node == some r

/-- All edges between the nodes are counted. -/
def start : Countdown :=
  let counts r := (nodes.flatMap ix.out).countP (leadsTo nodes r)
  let ranks := Finset.range nodes.length
  ⟨counts, ranks.filter (counts · = 0), ranks.filter (counts · ≠ 0)⟩

/-- The counts without one of the edges into a node. -/
def lowered (c : Countdown) (r : Nat) : Nat → Nat := Function.update c.counts r (c.counts r - 1)

/-- Take one edge off the count of a node that waits. There is no result when none is left. -/
def takeOff (c : Countdown) (r : Nat) : Option Countdown :=
  if r ∉ c.waiting then some c
  else if c.counts r = 0 then none
  else if c.lowered r r = 0 then some ⟨c.lowered r, insert r c.ready, c.waiting.erase r⟩
  else some ⟨c.lowered r, c.ready, c.waiting⟩

/-- Take off the edges that lead to nodes of the list. -/
def takeAll : List Link → Countdown → Option Countdown
  | [], c => some c
  | l :: rest, c =>
      match nodes.idxOf? l.node with
      | none => takeAll rest c
      | some r => (c.takeOff r).bind (takeAll rest)

/-- The first of some ranks. -/
def first? (ranks : Finset Nat) : Option Nat :=
  if h : ranks.Nonempty then some (ranks.min' h) else none

/-- The rank that is released next: the first that is ready, or the first that waits. -/
def next? (c : Countdown) : Option Nat := (first? c.ready).or (first? c.waiting)

/-- What is left when a rank is released. -/
def without (c : Countdown) (r : Nat) : Countdown := ⟨c.counts, c.ready.erase r, c.waiting.erase r⟩

/-- Release at most `fuel` nodes. There is no result when a count would have to fall below zero. -/
def release : Nat → Countdown → Option (List Nat)
  | 0, _ => some []
  | fuel + 1, c =>
      match c.next? with
      | none => some []
      | some r => do
          let v ← nodes[r]?
          let c ← takeAll nodes (ix.out v) (c.without r)
          let rest ← release fuel c
          return v :: rest

/-- The nodes as they are released. -/
def order : Option (List Nat) := release ix nodes nodes.length (start ix nodes)

/-- The counts are right: `left` are the nodes that are not released, and `todo` the edges out of the
one released last that have not been taken off. -/
structure Counted (left : List Nat) (todo : List Link) (c : Countdown) : Prop where
  mem_iff : ∀ r, r ∈ c.ready ∨ r ∈ c.waiting ↔ ∃ v ∈ left, nodes.idxOf v = r
  counts : ∀ r, r ∈ c.ready ∨ r ∈ c.waiting →
    c.counts r = (left.flatMap ix.out ++ todo).countP (leadsTo nodes r)
  ready : ∀ r ∈ c.ready, c.counts r = 0
  waiting : ∀ r ∈ c.waiting, c.counts r ≠ 0

variable {ix nodes} {left : List Nat} {todo : List Link} {c : Countdown}

theorem idxOf?_eq_some_iff_idxOf {u r : Nat} :
    nodes.idxOf? u = some r ↔ u ∈ nodes ∧ nodes.idxOf u = r := by
  rw [List.idxOf_eq_getD_idxOf?, ← List.isSome_idxOf?]
  cases nodes.idxOf? u <;> simp

theorem leadsTo_idxOf {v : Nat} (hv : v ∈ nodes) (l : Link) :
    leadsTo nodes (nodes.idxOf v) l = (l.node == v) := by
  rw [leadsTo, Bool.eq_iff_iff, beq_iff_eq, beq_iff_eq, idxOf?_eq_some_iff_idxOf]
  constructor
  · intro h
    exact (List.idxOf_inj h.1).mp h.2
  · intro h
    rw [h]
    exact ⟨hv, rfl⟩

/-- No edge is counted for a node exactly when none of the others leads to it. -/
theorem countP_leadsTo_eq_zero_iff {v : Nat} (hv : v ∈ nodes) :
    (left.flatMap ix.out).countP (leadsTo nodes (nodes.idxOf v)) = 0 ↔
      ∀ u ∈ left, ix.hasEdge u v = false := by
  rw [List.countP_eq_zero]
  simp only [List.mem_flatMap, leadsTo_idxOf hv, Index.hasEdge, List.any_eq_false]
  constructor
  · intro h u hu l hl
    exact h l ⟨u, hu, hl⟩
  · intro h l hl
    obtain ⟨u, hu, hl⟩ := hl
    exact h u hu l hl

/-- An edge that leads nowhere in the list counts for no node. -/
theorem Counted.skip {l : Link} (h : Counted ix nodes left (l :: todo) c)
    (hl : nodes.idxOf? l.node = none) : Counted ix nodes left todo c := by
  refine ⟨h.mem_iff, ?_, h.ready, h.waiting⟩
  intro r hr
  rw [h.counts r hr]
  simp [List.countP_append, leadsTo, hl]

/-- The counts of other nodes do not see an edge. -/
theorem countP_leadsTo_of_ne {l : Link} {r s : Nat} (hl : nodes.idxOf? l.node = some r)
    (hne : s ≠ r) : (left.flatMap ix.out ++ l :: todo).countP (leadsTo nodes s) =
      (left.flatMap ix.out ++ todo).countP (leadsTo nodes s) := by
  have hother : ¬ r = s := Ne.symm hne
  simp [List.countP_append, leadsTo, hl, hother]

theorem countP_leadsTo_self {l : Link} {r : Nat} (hl : nodes.idxOf? l.node = some r) :
    (left.flatMap ix.out ++ l :: todo).countP (leadsTo nodes r) =
      (left.flatMap ix.out ++ todo).countP (leadsTo nodes r) + 1 := by
  simp [List.countP_append, leadsTo, hl]
  omega

theorem lowered_self (c : Countdown) (r : Nat) : c.lowered r r = c.counts r - 1 :=
  Function.update_self r _ _

theorem lowered_of_ne (c : Countdown) {r s : Nat} (hne : s ≠ r) : c.lowered r s = c.counts s :=
  Function.update_of_ne hne _ _

/-- No more edges come for a node that is ready. -/
theorem Counted.ne_of_mem_ready {l : Link} {r s : Nat} (h : Counted ix nodes left (l :: todo) c)
    (hl : nodes.idxOf? l.node = some r) (hs : s ∈ c.ready) : s ≠ r := by
  intro heq
  subst heq
  have hcount := h.counts s (Or.inl hs)
  rw [h.ready s hs, countP_leadsTo_self hl] at hcount
  omega

/-- The edge that is taken off is the only one that is missing in the counts. -/
theorem Counted.counts_of_ne {l : Link} {r s : Nat} (h : Counted ix nodes left (l :: todo) c)
    (hl : nodes.idxOf? l.node = some r) (hne : s ≠ r) (hs : s ∈ c.ready ∨ s ∈ c.waiting) :
    c.counts s = (left.flatMap ix.out ++ todo).countP (leadsTo nodes s) := by
  rw [h.counts s hs, countP_leadsTo_of_ne hl hne]

theorem Counted.lowered_eq {l : Link} {r s : Nat} (h : Counted ix nodes left (l :: todo) c)
    (hl : nodes.idxOf? l.node = some r) (hs : s ∈ c.ready ∨ s ∈ c.waiting) :
    c.lowered r s = (left.flatMap ix.out ++ todo).countP (leadsTo nodes s) := by
  by_cases hne : s = r
  · subst hne
    rw [lowered_self, h.counts s hs, countP_leadsTo_self hl, Nat.add_sub_cancel]
  · rw [lowered_of_ne c hne, h.counts_of_ne hl hne hs]

theorem Counted.lowered_of_mem_ready {l : Link} {r s : Nat}
    (h : Counted ix nodes left (l :: todo) c) (hl : nodes.idxOf? l.node = some r)
    (hs : s ∈ c.ready) : c.lowered r s = 0 :=
  (lowered_of_ne c (h.ne_of_mem_ready hl hs)).trans (h.ready s hs)

/-- The count of a node that waits is above zero when an edge is taken off, and is right again
afterwards. -/
theorem Counted.takeOff {l : Link} {r : Nat} (h : Counted ix nodes left (l :: todo) c)
    (hl : nodes.idxOf? l.node = some r) :
    ∃ c', c.takeOff r = some c' ∧ Counted ix nodes left todo c' := by
  by_cases hr : r ∈ c.waiting
  · have hpos := h.waiting r hr
    by_cases hzero : c.lowered r r = 0
    · -- The last edge is gone, and the node gets ready.
      have hmem : ∀ s, s ∈ insert r c.ready ∨ s ∈ c.waiting.erase r ↔
          s ∈ c.ready ∨ s ∈ c.waiting := by
        intro s
        by_cases hs : s = r <;> simp [hs, hr]
      refine ⟨⟨c.lowered r, insert r c.ready, c.waiting.erase r⟩, ?_, ?_, ?_, ?_, ?_⟩
      · rw [Countdown.takeOff, if_neg (not_not.mpr hr), if_neg hpos, if_pos hzero]
      · intro s
        rw [← h.mem_iff s]
        exact hmem s
      · intro s hs
        exact h.lowered_eq hl ((hmem s).mp hs)
      · intro s hs
        rcases Finset.mem_insert.mp hs with rfl | hs
        · exact hzero
        · exact h.lowered_of_mem_ready hl hs
      · intro s hs
        obtain ⟨hne, hs⟩ := Finset.mem_erase.mp hs
        exact (lowered_of_ne c hne).trans_ne (h.waiting s hs)
    · refine ⟨⟨c.lowered r, c.ready, c.waiting⟩, ?_, h.mem_iff, ?_, ?_, ?_⟩
      · rw [Countdown.takeOff, if_neg (not_not.mpr hr), if_neg hpos, if_neg hzero]
      · intro s hs
        exact h.lowered_eq hl hs
      · intro s hs
        exact h.lowered_of_mem_ready hl hs
      · intro s hs
        by_cases hne : s = r
        · subst hne
          exact hzero
        · exact (lowered_of_ne c hne).trans_ne (h.waiting s hs)
  · -- What is released or ready loses no edges.
    refine ⟨c, by rw [Countdown.takeOff, if_pos hr], h.mem_iff, ?_, h.ready, h.waiting⟩
    intro s hs
    apply h.counts_of_ne hl _ hs
    rcases hs with hs | hs
    · exact h.ne_of_mem_ready hl hs
    · exact ne_of_mem_of_not_mem hs hr

theorem Counted.takeAll (h : Counted ix nodes left todo c) :
    ∃ c', Countdown.takeAll nodes todo c = some c' ∧ Counted ix nodes left [] c' := by
  induction todo generalizing c with
  | nil => exact ⟨c, rfl, h⟩
  | cons l rest ih =>
      cases hl : nodes.idxOf? l.node with
      | none =>
          obtain ⟨c', htake, hcounted⟩ := ih (h.skip hl)
          exact ⟨c', by simp [Countdown.takeAll, hl, htake], hcounted⟩
      | some r =>
          obtain ⟨c₁, hoff, hnext⟩ := h.takeOff hl
          obtain ⟨c', htake, hcounted⟩ := ih hnext
          exact ⟨c', by simp [Countdown.takeAll, hl, hoff, htake], hcounted⟩

/-- What is found first in a list comes first in every list around it. -/
theorem idxOf_le_of_find? {p : Nat → Bool} {u v : Nat} (hnodup : nodes.Nodup)
    (hsub : left.Sublist nodes) (hv : left.find? p = some v) (hu : u ∈ left) (hp : p u = true) :
    nodes.idxOf v ≤ nodes.idxOf u := by
  obtain ⟨-, first, rest, rfl, hfirst⟩ := List.find?_eq_some_iff_append.mp hv
  have hrest : u ∈ v :: rest := by
    rcases List.mem_append.mp hu with hu | hu
    · have hnot := hfirst u hu
      rw [hp] at hnot
      exact absurd hnot (by decide)
    · exact hu
  have hsub' : (v :: rest).Sublist nodes := (List.sublist_append_right first _).trans hsub
  exact (subset_restFrom_of_head hnodup hsub' rfl hrest).2

/-- Ready are the nodes to which none of those that are left leads. -/
theorem Counted.idxOf_mem_ready_iff {v : Nat} (h : Counted ix nodes left [] c)
    (hsub : left.Sublist nodes) (hv : v ∈ left) :
    nodes.idxOf v ∈ c.ready ↔ ∀ u ∈ left, ix.hasEdge u v = false := by
  have hmem := (h.mem_iff _).mpr ⟨v, hv, rfl⟩
  have hcount := h.counts _ hmem
  rw [List.append_nil] at hcount
  rw [← countP_leadsTo_eq_zero_iff (hsub.subset hv), ← hcount]
  constructor
  · exact h.ready _
  · intro hzero
    exact hmem.resolve_right fun hwaiting => h.waiting _ hwaiting hzero

/-- Once a node is released, the edges out of it are still to be taken off. -/
theorem Counted.without {v : Nat} (hnodup : nodes.Nodup) (hsub : left.Sublist nodes)
    (h : Counted ix nodes left [] c) (hv : v ∈ left) :
    Counted ix nodes (left.erase v) (ix.out v) (c.without (nodes.idxOf v)) := by
  have hedges : (left.flatMap ix.out).Perm ((left.erase v).flatMap ix.out ++ ix.out v) := by
    have hperm := (List.perm_cons_erase hv).flatMap_right ix.out
    rw [List.flatMap_cons] at hperm
    exact hperm.trans List.perm_append_comm
  have hmem : ∀ r, r ∈ c.ready.erase (nodes.idxOf v) ∨ r ∈ c.waiting.erase (nodes.idxOf v) ↔
      r ≠ nodes.idxOf v ∧ (r ∈ c.ready ∨ r ∈ c.waiting) := by
    intro r
    rw [Finset.mem_erase, Finset.mem_erase, ← and_or_left]
  refine ⟨?_, ?_, ?_, ?_⟩
  · intro r
    rw [Countdown.without, hmem r, h.mem_iff]
    constructor
    · intro hr
      obtain ⟨hne, u, hu, rfl⟩ := hr
      have huv : u ≠ v := fun heq => hne (heq ▸ rfl)
      exact ⟨u, (List.mem_erase_of_ne huv).mpr hu, rfl⟩
    · intro hr
      obtain ⟨u, hu, rfl⟩ := hr
      obtain ⟨huv, hu⟩ := (hsub.nodup hnodup).mem_erase_iff.mp hu
      exact ⟨fun heq => huv ((List.idxOf_inj (hsub.subset hu)).mp heq), u, hu, rfl⟩
  · intro r hr
    rw [← hedges.countP_eq, ← List.append_nil (left.flatMap ix.out)]
    exact h.counts r ((hmem r).mp hr).2
  · intro r hr
    exact h.ready r (Finset.mem_of_mem_erase hr)
  · intro r hr
    exact h.waiting r (Finset.mem_of_mem_erase hr)

theorem first?_eq_some_iff {ranks : Finset Nat} {r : Nat} :
    first? ranks = some r ↔ r ∈ ranks ∧ ∀ s ∈ ranks, r ≤ s := by
  rw [first?]
  split
  · next h => rw [Option.some.injEq, Finset.min'_eq_iff]
  · next h => simp [Finset.not_nonempty_iff_eq_empty.mp h]

theorem first?_eq_none_iff {ranks : Finset Nat} : first? ranks = none ↔ ranks = ∅ := by
  rw [first?]
  split
  · next h => simp [h.ne_empty]
  · next h => simp [Finset.not_nonempty_iff_eq_empty.mp h]

/-- The counts release the node that the edges let go first. -/
theorem Counted.next?_eq (hnodup : nodes.Nodup) (hsub : left.Sublist nodes)
    (h : Counted ix nodes left [] c) :
    c.next? = (nextReleased ix.hasEdge left).map nodes.idxOf := by
  have hrank : ∀ r, r ∈ c.ready ∨ r ∈ c.waiting → ∃ u ∈ left, nodes.idxOf u = r :=
    fun r => (h.mem_iff r).mp
  cases hfree : left.find? fun v => left.all fun u => !ix.hasEdge u v with
  | some v =>
      have hleft : v ∈ left := List.mem_of_find?_eq_some hfree
      have hall := List.find?_some hfree
      have hready : nodes.idxOf v ∈ c.ready :=
        (h.idxOf_mem_ready_iff hsub hleft).mpr (by simpa using hall)
      have hfirst : first? c.ready = some (nodes.idxOf v) := by
        rw [first?_eq_some_iff]
        refine ⟨hready, ?_⟩
        intro r hr
        obtain ⟨u, hu, rfl⟩ := hrank r (Or.inl hr)
        have hall' := (h.idxOf_mem_ready_iff hsub hu).mp hr
        exact idxOf_le_of_find? hnodup hsub hfree hu (by simpa using hall')
      rw [Countdown.next?, hfirst, nextReleased, hfree]
      rfl
  | none =>
      -- Every node that is left waits for another one: the first of them is released all the same.
      have hready : first? c.ready = none := by
        rw [first?_eq_none_iff, Finset.eq_empty_iff_forall_notMem]
        intro r hr
        obtain ⟨u, hu, rfl⟩ := hrank r (Or.inl hr)
        have hall := (h.idxOf_mem_ready_iff hsub hu).mp hr
        exact List.find?_eq_none.mp hfree u hu (by simpa using hall)
      have hempty := first?_eq_none_iff.mp hready
      rw [Countdown.next?, hready, nextReleased, hfree, Option.none_or, Option.none_or]
      cases left with
      | nil =>
          rw [List.head?_nil, Option.map_none, first?_eq_none_iff,
            Finset.eq_empty_iff_forall_notMem]
          intro r hr
          obtain ⟨u, hu, -⟩ := hrank r (Or.inr hr)
          exact List.not_mem_nil hu
      | cons v rest =>
          rw [List.head?_cons, Option.map_some, first?_eq_some_iff]
          have hmem := (h.mem_iff _).mpr ⟨v, List.mem_cons_self, rfl⟩
          refine ⟨hmem.resolve_left (by simp [hempty]), ?_⟩
          intro r hr
          obtain ⟨u, hu, rfl⟩ := hrank r (Or.inr hr)
          exact (subset_restFrom_of_head hnodup hsub rfl hu).2

/-- The counts release the nodes in the order that follows the edges. -/
theorem Counted.release (hnodup : nodes.Nodup) (fuel : Nat) (hsub : left.Sublist nodes)
    (h : Counted ix nodes left [] c) :
    release ix nodes fuel c = some (releaseOrder ix.hasEdge fuel left) := by
  induction fuel generalizing left c with
  | zero => rfl
  | succ fuel ih =>
      rw [Countdown.release, h.next?_eq hnodup hsub, releaseOrder]
      cases hnext : nextReleased ix.hasEdge left with
      | none => rfl
      | some v =>
          have hleft : v ∈ left := nextReleased_mem hnext
          have hv : nodes[nodes.idxOf v]? = some v := List.getElem?_idxOf (hsub.subset hleft)
          -- The counts are right again for the nodes without `v`, so the induction goes on there.
          obtain ⟨c', htake, hcounted⟩ := (h.without hnodup hsub hleft).takeAll
          have hrest := ih (List.erase_sublist.trans hsub) hcounted
          simp [hv, htake, hrest]

theorem counted_start (hnodup : nodes.Nodup) : Counted ix nodes nodes [] (start ix nodes) := by
  have hmem : ∀ r, r ∈ (start ix nodes).ready ∨ r ∈ (start ix nodes).waiting ↔
      r < nodes.length := by
    intro r
    rw [start, Finset.mem_filter, Finset.mem_filter, ← and_or_left, Finset.mem_range]
    exact and_iff_left (em _)
  refine ⟨?_, ?_, ?_, ?_⟩
  · intro r
    rw [hmem r]
    constructor
    · intro hr
      exact ⟨nodes[r], List.getElem_mem hr, hnodup.idxOf_getElem r hr⟩
    · intro hr
      obtain ⟨v, hv, rfl⟩ := hr
      exact List.idxOf_lt_length_of_mem hv
  · intro r _
    rw [List.append_nil]
    rfl
  · intro r hr
    exact (Finset.mem_filter.mp hr).2
  · intro r hr
    exact (Finset.mem_filter.mp hr).2

/-- Counting the edges, no count falls below zero, and the nodes come in the order that follows the
edges. -/
theorem order_eq (ix : Index) (hnodup : nodes.Nodup) :
    order ix nodes = some (ix.topologicalOrder nodes) :=
  (counted_start hnodup).release hnodup nodes.length (List.Sublist.refl _)

end Countdown

end FlowScope
