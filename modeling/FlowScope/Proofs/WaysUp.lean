import FlowScope.Proofs.Declared
import Mathlib.Data.List.Chain
import Mathlib.Data.List.Induction
import Mathlib.Data.List.Perm.Subperm
import Mathlib.Logic.Relation
/-!
The walk that makes the chain of a node. It goes from each node to the one that encloses it, until
there is none or one that it has met before, so it stops however the nodes are nested. What it has met
then is the longest way up that meets no node twice: all others are beginnings of it.
-/
namespace FlowScope

open Relation

namespace Index

/-- One position directly encloses another. -/
def EnclosedBy (ix : Index) (i l : Nat) : Prop := ix.parent i = some l

/-- A way up from `i`: what encloses `i` comes first, then what encloses the one before, and no node is
met twice, nor is `i` itself. -/
structure WayUp (ix : Index) (i : Nat) (way : List Nat) : Prop where
  isChain : (i :: way).IsChain ix.EnclosedBy
  nodup : (i :: way).Nodup

variable {ix : Index} {i : Nat} {way chain : List Nat}

namespace WayUp

theorem nil : ix.WayUp i [] where
  isChain := List.isChain_singleton i
  nodup := List.nodup_singleton i

/-- A way goes on with what encloses its end, if that has not been met. -/
theorem concat_iff {l : Nat} : ix.WayUp i (way ++ [l]) ↔
    ix.WayUp i way ∧ ix.parent (way.getLast?.getD i) = some l ∧ l ∉ i :: way := by
  have hchain : (i :: (way ++ [l])).IsChain ix.EnclosedBy ↔
      (i :: way).IsChain ix.EnclosedBy ∧ ix.parent (way.getLast?.getD i) = some l := by
    rw [← List.cons_append, List.isChain_append, List.getLast?_cons]
    simp [EnclosedBy]
  have hnodup : (i :: (way ++ [l])).Nodup ↔ (i :: way).Nodup ∧ l ∉ i :: way := by
    rw [← List.cons_append, List.nodup_append']
    simp [and_comm]
  constructor
  · intro h
    obtain ⟨hbefore, hparent⟩ := hchain.mp h.isChain
    obtain ⟨hdistinct, hnew⟩ := hnodup.mp h.nodup
    exact ⟨⟨hbefore, hdistinct⟩, hparent, hnew⟩
  · rintro ⟨h, hparent, hnew⟩
    exact ⟨hchain.mpr ⟨h.isChain, hparent⟩, hnodup.mpr ⟨h.nodup, hnew⟩⟩

theorem beginning (h : ix.WayUp i chain) (hbegins : way <+: chain) : ix.WayUp i way := by
  have hbegins : i :: way <+: i :: chain := (List.prefix_cons_inj i).mpr hbegins
  constructor
  · exact List.IsChain.prefix h.isChain hbegins
  · exact h.nodup.sublist hbegins.sublist

/-- What is met on a way encloses the node where the way begins. -/
theorem transGen {l : Nat} (h : ix.WayUp i way) (hl : l ∈ way) : TransGen ix.EnclosedBy i l := by
  induction way generalizing i with
  | nil => exact absurd hl List.not_mem_nil
  | cons k rest ih =>
      obtain ⟨hfirst, hchain⟩ := List.isChain_cons_cons.mp h.isChain
      rcases List.mem_cons.mp hl with rfl | hl
      · exact .single hfirst
      · exact .head hfirst (ih ⟨hchain, (List.nodup_cons.mp h.nodup).2⟩ hl)

/-- A way is no longer than there are nodes, as it meets none of them twice. -/
theorem length_le (h : ix.WayUp i way) (hwf : ix.WellFormed) : way.length ≤ ix.size := by
  have hsub : way ⊆ List.range ix.size := by
    intro l hl
    obtain ⟨b, -, hb⟩ := TransGen.tail'_iff.mp (h.transGen hl)
    exact List.mem_range.mpr (parent_lt hwf.sound hwf.parents_eq hb).1
  have hle := ((List.nodup_cons.mp h.nodup).2.subperm hsub).length_le
  rwa [List.length_range] at hle

end WayUp

/-- A way up that cannot go on: what encloses its end, if anything does, has been met. -/
structure WholeWayUp (ix : Index) (i : Nat) (chain : List Nat) : Prop extends ix.WayUp i chain where
  closed : ∀ l, ix.parent (chain.getLast?.getD i) = some l → l ∈ i :: chain

namespace WholeWayUp

/-- Ways up from a node do not part, as only one node directly encloses another. So those that are no
beginning of a given one go on where it ends, which they cannot do here. -/
theorem prefix_of_wayUp (hwhole : ix.WholeWayUp i chain) (h : ix.WayUp i way) : way <+: chain := by
  induction way using List.reverseRecOn with
  | nil => exact List.nil_prefix
  | append_singleton before l ih =>
      obtain ⟨hbefore, hparent, hnew⟩ := WayUp.concat_iff.mp h
      obtain ⟨rest, rfl⟩ := ih hbefore
      cases rest with
      | nil =>
          rw [List.append_nil] at hwhole
          exact absurd (hwhole.closed l hparent) hnew
      | cons m rest =>
          have hbegins : before ++ [m] <+: before ++ m :: rest := by simp
          obtain ⟨-, hnext, -⟩ := WayUp.concat_iff.mp (hwhole.toWayUp.beginning hbegins)
          obtain rfl : l = m := Option.some.inj (hparent.symm.trans hnext)
          exact hbegins

theorem head?_eq (hwhole : ix.WholeWayUp i chain) (hwf : ix.WellFormed) :
    chain.head? = ix.parent i := by
  cases chain with
  | nil =>
      cases hparent : ix.parent i with
      | none => rfl
      | some l =>
          -- No node encloses itself, so a whole way is empty only where nothing encloses its beginning.
          have hself : l = i := List.mem_singleton.mp (hwhole.closed l hparent)
          exact absurd hself (parent_lt hwf.sound hwf.parents_eq hparent).2
  | cons l rest => exact (List.isChain_cons_cons.mp hwhole.isChain).1.symm

/-- What encloses the last member is the node where the way begins, or a member. -/
theorem eq_or_mem_of_getLast? {l m : Nat} (hwhole : ix.WholeWayUp i chain)
    (hl : l ∈ chain.getLast?) (hparent : ix.parent l = some m) : m = i ∨ m ∈ chain := by
  apply List.mem_cons.mp
  apply hwhole.closed m
  rwa [hl]

/-- What encloses the beginning or a member is the beginning or a member. -/
theorem mem_of_enclosedBy {a b : Nat} (hwhole : ix.WholeWayUp i chain) (ha : a ∈ i :: chain)
    (hb : ix.EnclosedBy a b) : b ∈ i :: chain := by
  obtain ⟨before, after, hsplit⟩ := List.append_of_mem ha
  cases after with
  | nil =>
      have hend : a = chain.getLast?.getD i := by
        have hlast : (i :: chain).getLast? = some a := by rw [hsplit, List.getLast?_concat]
        rw [List.getLast?_cons] at hlast
        exact (Option.some.inj hlast).symm
      exact hwhole.closed b (hend ▸ hb)
  | cons c rest =>
      have hchain := hwhole.isChain
      rw [hsplit, List.isChain_append] at hchain
      have hc : ix.EnclosedBy a c := (List.isChain_cons_cons.mp hchain.2.1).1
      obtain rfl : b = c := Option.some.inj (hb.symm.trans hc)
      rw [hsplit]
      simp

theorem mem_of_transGen {l : Nat} (hwhole : ix.WholeWayUp i chain) (hl : TransGen ix.EnclosedBy i l) :
    l ∈ i :: chain := by
  induction hl with
  | single hl => exact hwhole.mem_of_enclosedBy List.mem_cons_self hl
  | tail _ hl ih => exact hwhole.mem_of_enclosedBy ih hl

/-- A whole way meets everything else that encloses the node where it begins, directly or not. -/
theorem mem_iff {l : Nat} (hwhole : ix.WholeWayUp i chain) :
    l ∈ chain ↔ l ≠ i ∧ TransGen ix.EnclosedBy i l := by
  constructor
  · intro hl
    refine ⟨fun heq => ?_, hwhole.transGen hl⟩
    exact (List.nodup_cons.mp hwhole.nodup).1 (heq ▸ hl)
  · rintro ⟨hne, hl⟩
    exact List.mem_of_ne_of_mem hne (hwhole.mem_of_transGen hl)

end WholeWayUp

/-- A walk up on its way: what it has met, where it has been, and where it goes next. -/
structure Ascent where
  chain : List Nat
  seen : List Nat
  next : Option Nat

namespace Ascent

/-- The walk up from `i` before its first step. -/
def start (ix : Index) (i : Nat) : Ascent := ⟨[], [i], ix.parent i⟩

/-- A step to the next node, and on to what encloses that. There is none when no node is next, or one
where the walk has been. -/
def step? (ix : Index) (s : Ascent) : Option Ascent :=
  s.next.bind fun l =>
    if s.seen.contains l then none else some ⟨s.chain ++ [l], l :: s.seen, ix.parent l⟩

/-- Some steps lead from `s` to `last`, and there is no other step from there. -/
structure StopsAt (ix : Index) (s last : Ascent) : Prop where
  reached : ReflTransGen (fun s t => s.step? ix = some t) s last
  stopped : last.step? ix = none

variable {s t last : Ascent}

theorem step?_eq_some_iff : s.step? ix = some t ↔
    ∃ l, s.next = some l ∧ l ∉ s.seen ∧ t = ⟨s.chain ++ [l], l :: s.seen, ix.parent l⟩ := by
  rw [step?, Option.bind_eq_some_iff]
  refine exists_congr fun l => and_congr_right fun _ => ?_
  by_cases hl : l ∈ s.seen
  · simp [hl]
  · simp [hl, eq_comm]

theorem step?_eq_none_iff : s.step? ix = none ↔ ∀ l, s.next = some l → l ∈ s.seen := by
  simp [step?, Option.bind_eq_none_iff]

theorem length_chain_of_step (hstep : s.step? ix = some t) :
    t.chain.length = s.chain.length + 1 := by
  obtain ⟨l, -, -, rfl⟩ := step?_eq_some_iff.mp hstep
  rw [List.length_append, List.length_singleton]

theorem climb_of_stopped (hstopped : s.step? ix = none) (fuel : Nat) :
    ix.climb fuel s.seen s.next = [] := by
  have hseen := step?_eq_none_iff.mp hstopped
  cases hnext : s.next with
  | none => rw [climb]
  | some l =>
      cases fuel with
      | zero => simp [climb]
      | succ fuel => rw [climb, if_pos (by simpa using hseen l hnext)]

theorem climb_of_step (hstep : s.step? ix = some t) (fuel : Nat) :
    s.chain ++ ix.climb (fuel + 1) s.seen s.next = t.chain ++ ix.climb fuel t.seen t.next := by
  obtain ⟨l, hnext, hnew, rfl⟩ := step?_eq_some_iff.mp hstep
  rw [hnext, climb, if_neg (by simpa using hnew), List.append_assoc, List.singleton_append]

theorem exists_stopsAt_of_stopped (hstopped : s.step? ix = none) (fuel : Nat) :
    ∃ last, s.StopsAt ix last ∧ last.chain = s.chain ++ ix.climb fuel s.seen s.next :=
  ⟨s, ⟨.refl, hstopped⟩, by rw [climb_of_stopped hstopped, List.append_nil]⟩

/-- What is true of a walk up from `i` at every time: it has made a way up, it knows where it has been,
and what is next encloses the end of the way. -/
structure Sound (ix : Index) (i : Nat) (s : Ascent) : Prop where
  wayUp : ix.WayUp i s.chain
  mem_seen : ∀ l, l ∈ s.seen ↔ l ∈ i :: s.chain
  next_eq : s.next = ix.parent (s.chain.getLast?.getD i)

theorem sound_start (ix : Index) (i : Nat) : Sound ix i (start ix i) where
  wayUp := .nil
  mem_seen _ := Iff.rfl
  next_eq := rfl

namespace Sound

theorem step (h : Sound ix i s) (hstep : s.step? ix = some t) : Sound ix i t := by
  obtain ⟨l, hnext, hnew, rfl⟩ := step?_eq_some_iff.mp hstep
  rw [h.mem_seen] at hnew
  constructor
  · exact WayUp.concat_iff.mpr ⟨h.wayUp, h.next_eq.symm.trans hnext, hnew⟩
  · intro a
    rw [List.mem_cons, h.mem_seen, ← List.cons_append, List.mem_append, List.mem_singleton, or_comm]
  · rw [List.getLast?_concat, Option.getD_some]

theorem of_stopsAt (h : Sound ix i s) (hstops : s.StopsAt ix last) : Sound ix i last := by
  obtain ⟨hreached, -⟩ := hstops
  induction hreached with
  | refl => exact h
  | tail _ hstep ih => exact ih.step hstep

/-- Where a walk stops, it has made a way that cannot go on. -/
theorem wholeWayUp (h : Sound ix i s) (hstopped : s.step? ix = none) : ix.WholeWayUp i s.chain where
  toWayUp := h.wayUp
  closed l hl := by
    rw [← h.mem_seen]
    exact step?_eq_none_iff.mp hstopped l (h.next_eq.trans hl)

/-- A walk that has met as many nodes as there are has no further step. -/
theorem stopped_of_size_le (h : Sound ix i s) (hwf : ix.WellFormed)
    (hle : ix.size ≤ s.chain.length) : s.step? ix = none := by
  cases hstep : s.step? ix with
  | none => rfl
  | some t =>
      have hroom := (h.step hstep).wayUp.length_le hwf
      rw [length_chain_of_step hstep] at hroom
      omega

/-- A walk stops, and what it has met then is found by counting down from any number that is large
enough. The number could end the walk too early, but with the nodes that have been met it is no less
than the number of all nodes. -/
theorem exists_stopsAt (hwf : ix.WellFormed) {fuel : Nat} (h : Sound ix i s)
    (hfuel : ix.size ≤ s.chain.length + fuel) :
    ∃ last, s.StopsAt ix last ∧ last.chain = s.chain ++ ix.climb fuel s.seen s.next := by
  induction fuel generalizing s with
  | zero => exact exists_stopsAt_of_stopped (h.stopped_of_size_le hwf hfuel) 0
  | succ fuel ih =>
      cases hstep : s.step? ix with
      | none => exact exists_stopsAt_of_stopped hstep (fuel + 1)
      | some t =>
          have hroom : ix.size ≤ t.chain.length + fuel := by
            rw [length_chain_of_step hstep]
            omega
          obtain ⟨last, hstops, hlast⟩ := ih (h.step hstep) hroom
          refine ⟨last, ⟨ReflTransGen.head hstep hstops.reached, hstops.stopped⟩, ?_⟩
          rw [climb_of_step hstep, hlast]

end Sound

end Ascent

/-- The walk up from a node stops, and the chain is what it has met. -/
theorem exists_stopsAt_loopChain (hwf : ix.WellFormed) (i : Nat) :
    ∃ last, (Ascent.start ix i).StopsAt ix last ∧ last.chain = ix.loopChain i :=
  (Ascent.sound_start ix i).exists_stopsAt hwf (Nat.le_add_left _ _)

theorem wholeWayUp_loopChain (hwf : ix.WellFormed) (i : Nat) : ix.WholeWayUp i (ix.loopChain i) := by
  obtain ⟨last, hstops, hlast⟩ := exists_stopsAt_loopChain hwf i
  rw [← hlast]
  exact ((Ascent.sound_start ix i).of_stopsAt hstops).wholeWayUp hstops.stopped

end Index

/-- However the nodes of a workflow are nested, the chain of a node is the longest way up from it that
meets no node twice: it begins with what encloses the node, and all other ways are beginnings of it. The
walk up from the node stops when it has met the chain, as what encloses the last member, if anything
does, is the node itself or has been met. -/
theorem Workflow.loopChain_longest (w : Workflow) (i : Nat) :
    w.index.WayUp i (w.index.loopChain i) ∧
    (∀ way, w.index.WayUp i way → way <+: w.index.loopChain i) ∧
    (w.index.loopChain i).head? = w.index.parent i ∧
    (∃ last, (Index.Ascent.start w.index i).StopsAt w.index last ∧
      last.chain = w.index.loopChain i) ∧
    ∀ l ∈ (w.index.loopChain i).getLast?, w.index.parent l = none ∨
      w.index.parent l = some i ∨ ∃ m ∈ w.index.loopChain i, w.index.parent l = some m := by
  have hwf := w.index_wellFormed
  have hwhole := Index.wholeWayUp_loopChain hwf i
  refine ⟨hwhole.toWayUp, fun way h => hwhole.prefix_of_wayUp h, hwhole.head?_eq hwf,
    Index.exists_stopsAt_loopChain hwf i, fun l hl => ?_⟩
  cases hparent : w.index.parent l with
  | none => exact Or.inl rfl
  | some m =>
      rcases hwhole.eq_or_mem_of_getLast? hl hparent with rfl | hm
      · exact Or.inr (Or.inl rfl)
      · exact Or.inr (Or.inr ⟨m, hm, rfl⟩)

namespace WaysUpWitness

/-- Two loops that say they are in each other, and a node in one of them. -/
def workflow : Workflow where
  nodes := [
    { id := ⟨"1"⟩, type := .loop, loop := some ⟨"2"⟩ },
    { id := ⟨"2"⟩, type := .loop, loop := some ⟨"1"⟩ },
    { id := ⟨"3"⟩, type := .code, loop := some ⟨"2"⟩ }]

theorem loopChain_longest_circle :
    workflow.index.loopChain 2 = [1, 0] ∧ workflow.index.parent 0 = some 1 ∧
      workflow.index.WayUp 2 [1] ∧ [1] <+: workflow.index.loopChain 2 := by
  have hparent : workflow.index.parent 2 = some 1 := by decide
  have hway : workflow.index.WayUp 2 [1] :=
    Index.WayUp.concat_iff.mpr ⟨.nil, hparent, by decide⟩
  obtain ⟨-, hlongest, -⟩ := workflow.loopChain_longest 2
  exact ⟨by decide, by decide, hway, hlongest [1] hway⟩

end WaysUpWitness

end FlowScope
