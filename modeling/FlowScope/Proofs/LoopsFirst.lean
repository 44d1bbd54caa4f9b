import FlowScope.Proofs.EnclosingLoops
/-!
Where the missing loops around a target are put. Each of them stands before all nodes in sight that are in
its body, at any depth, however many loops are missing and in whatever order they are put in; and to take
them out again leaves the nodes in sight in the order that follows the edges.
-/
namespace FlowScope

open Relation

namespace Index

/-- No node encloses itself, directly or not. -/
def NestsAcyclically (ix : Index) : Prop := ∀ p, ¬TransGen ix.EnclosedBy p p

/-- No node stands before one of the loops that it is in. -/
def LoopsFirst (ix : Index) (loops : Set Nat) (nodes : List Nat) : Prop :=
  nodes.Pairwise fun a b => b ∈ loops → b ∉ ix.loopChain a

variable {ix : Index} {loops more : Set Nat} {chain nodes : List Nat} {l p t : Nat}

namespace NestsAcyclically

theorem mem_loopChain_iff (hnest : ix.NestsAcyclically) (h : ix.WellFormed) :
    l ∈ ix.loopChain p ↔ TransGen ix.EnclosedBy p l := by
  rw [Index.mem_loopChain_iff h, and_iff_right_of_imp]
  intro hway heq
  exact hnest p (heq ▸ hway)

theorem mem_loopChain_trans (hnest : ix.NestsAcyclically) (h : ix.WellFormed)
    (hl : l ∈ ix.loopChain p) (hp : p ∈ ix.loopChain t) : l ∈ ix.loopChain t := by
  rw [hnest.mem_loopChain_iff h] at hl hp ⊢
  exact hp.trans hl

/-- A loop around the target that was discovered is in sight. -/
theorem mem_visible_of_mem_loopChain (hnest : ix.NestsAcyclically) (h : ix.WellFormed)
    (hl : l ∈ ix.loopChain t) (hnodes : l ∈ nodes) : l ∈ ix.visible (ix.loopChain t) nodes := by
  refine mem_visible_iff.mpr ⟨hnodes, fun k hk => ?_⟩
  exact hnest.mem_loopChain_trans h (parent_mem_loopChain h hk) hl

end NestsAcyclically

theorem LoopsFirst.mono (hfirst : ix.LoopsFirst loops nodes) (hsub : more ⊆ loops) :
    ix.LoopsFirst more nodes :=
  hfirst.imp fun hab hb => hab (hsub hb)

/-- A missing loop is put between the nodes outside its body and the first one inside. -/
theorem exists_withLoop_eq (ix : Index) (hl : l ∉ nodes) :
    ∃ first rest, nodes = first ++ rest ∧ ix.withLoop l nodes = first ++ l :: rest ∧
      (∀ p ∈ first, l ∉ ix.loopChain p) ∧ ∀ p ∈ rest.head?, l ∈ ix.loopChain p := by
  let isOutside := fun p => !(ix.loopChain p).contains l
  refine ⟨nodes.takeWhile isOutside, nodes.dropWhile isOutside, ?_, ?_, fun p hp => ?_, fun p hp => ?_⟩
  · rw [List.takeWhile_append_dropWhile]
  · rw [withLoop, if_neg (by simpa using hl)]
  · simpa [isOutside] using List.mem_takeWhile_imp hp
  · have hhead := List.head?_dropWhile_not isOutside nodes
    rw [Option.mem_def.mp hp] at hhead
    simpa [isOutside] using hhead

/-- To put in one more loop leaves the other loops before their bodies. -/
theorem LoopsFirst.withLoop (hfirst : ix.LoopsFirst loops nodes) (hnest : ix.NestsAcyclically)
    (h : ix.WellFormed) (hl : l ∉ nodes) : ix.LoopsFirst (insert l loops) (ix.withLoop l nodes) := by
  obtain ⟨first, rest, rfl, heq, hout, hin⟩ := ix.exists_withLoop_eq hl
  have hold : (first ++ rest).Pairwise fun a b => b ∈ insert l loops → b ∉ ix.loopChain a := by
    refine List.Pairwise.imp_of_mem (fun _ hb hab hloop => ?_) hfirst
    exact hab (Set.mem_of_mem_insert_of_ne hloop (ne_of_mem_of_not_mem hb hl))
  obtain ⟨hbefore, hbehind, hacross⟩ := List.pairwise_append.mp hold
  have hnew : ∀ b ∈ rest, b ∈ insert l loops → b ∉ ix.loopChain l := by
    intro b hb hloop hbl
    cases rest with
    | nil => exact List.not_mem_nil hb
    | cons q tail =>
        -- A loop around `l` behind it would be around `q` and not stand before `q`.
        have hlq : l ∈ ix.loopChain q := hin q rfl
        have hbq : b ∈ ix.loopChain q := hnest.mem_loopChain_trans h hbl hlq
        rcases List.mem_cons.mp hb with rfl | hb
        · exact ne_of_mem_loopChain hbq rfl
        · exact (List.pairwise_cons.mp hbehind).1 b hb hloop hbq
  rw [LoopsFirst, heq, List.pairwise_append, List.pairwise_cons]
  refine ⟨hbefore, ⟨hnew, hbehind⟩, fun a ha b hb => ?_⟩
  rcases List.mem_cons.mp hb with rfl | hb
  · exact fun _ => hout a ha
  · exact hacross a ha b hb

theorem loopsFirst_withLoops (hnest : ix.NestsAcyclically) (h : ix.WellFormed) (chain nodes : List Nat) :
    ix.LoopsFirst { l | l ∈ chain ∧ l ∉ nodes } (ix.withLoops chain nodes) := by
  induction chain with
  | nil => exact List.pairwise_of_forall fun a b hb => absurd hb.1 List.not_mem_nil
  | cons l rest ih =>
      change ix.LoopsFirst _ (ix.withLoop l (ix.withLoops rest nodes))
      by_cases hl : l ∈ ix.withLoops rest nodes
      · rw [withLoop_of_mem hl]
        apply ih.mono
        intro x hx
        refine ⟨(List.mem_cons.mp hx.1).elim (fun heq => ?_) id, hx.2⟩
        exact (mem_withLoops_iff.mp (heq ▸ hl)).resolve_right hx.2
      · apply (ih.withLoop hnest h hl).mono
        intro x hx
        exact (List.mem_cons.mp hx.1).imp id fun hrest => ⟨hrest, hx.2⟩

/-- Where no node stands before a loop that it is in, the loop stands before all nodes in its body. -/
theorem LoopsFirst.idxOf_lt (hfirst : ix.LoopsFirst loops nodes) (hloop : l ∈ loops) (hl : l ∈ nodes)
    (hp : p ∈ nodes) (hlp : l ∈ ix.loopChain p) : nodes.idxOf l < nodes.idxOf p := by
  have hne : nodes.idxOf l ≠ nodes.idxOf p := by
    rw [ne_eq, List.idxOf_inj hl]
    exact ne_of_mem_loopChain hlp
  apply Nat.lt_of_le_of_ne _ hne
  by_contra hlt
  have hpair := List.pairwise_iff_getElem.mp hfirst (nodes.idxOf p) (nodes.idxOf l)
    (List.idxOf_lt_length_of_mem hp) (List.idxOf_lt_length_of_mem hl) (Nat.lt_of_not_le hlt)
  rw [List.getElem_idxOf, List.getElem_idxOf] at hpair
  exact hpair hloop hlp

/-- To take out what was put in gives back the nodes. -/
theorem filter_withLoop {keep : Nat → Bool} (hl : l ∉ nodes → keep l = false) :
    (ix.withLoop l nodes).filter keep = nodes.filter keep := by
  by_cases hmem : l ∈ nodes
  · rw [withLoop_of_mem hmem]
  · obtain ⟨first, rest, rfl, heq, -, -⟩ := ix.exists_withLoop_eq hmem
    rw [heq, List.filter_append, List.filter_append, List.filter_cons_of_neg (by simp [hl hmem])]

theorem filter_withLoops {keep : Nat → Bool} (hchain : ∀ l ∈ chain, l ∉ nodes → keep l = false) :
    (ix.withLoops chain nodes).filter keep = nodes.filter keep := by
  induction chain with
  | nil => rfl
  | cons l rest ih =>
      have hrest : (ix.withLoops rest nodes).filter keep = nodes.filter keep :=
        ih fun k hk => hchain k (List.mem_cons_of_mem l hk)
      rw [← hrest]
      refine filter_withLoop fun hl => hchain l List.mem_cons_self fun hmem => hl ?_
      exact mem_withLoops_iff.mpr (Or.inr hmem)

end Index

/-- Where loops do not nest in circles, every loop around the target that was not discovered stands in the
scope before all nodes in its body, and the other nodes of the scope are those in sight, in the order that
follows the edges. -/
theorem Workflow.missing_loops_first (w : Workflow) (further : List Argument)
    (hnest : w.index.NestsAcyclically) {target : NodeId} {t : Nat}
    (ht : w.index.position? target = some t) {found : List Nat}
    (hfound : (w.index.discover t).map (·.1) = found) :
    ∃ listed : List Nat,
      (w.scope further target).previousIds = listed.map (fun p => (w.index.nodeAt p).id) ∧
      listed.Nodup ∧
      (∀ l ∈ w.index.loopChain t, l ∉ found → l ∈ listed ∧
        ∀ p ∈ listed, l ∈ w.index.loopChain p → listed.idxOf l < listed.idxOf p) ∧
      listed.filter (fun p => p ∉ w.index.loopChain t ∨ p ∈ found) =
        w.index.visible (w.index.loopChain t) (w.index.topologicalOrder found) := by
  have h := w.index_wellFormed
  have horder : w.index.scopeOrder t = w.index.withLoops (w.index.loopChain t)
      (w.index.visible (w.index.loopChain t) (w.index.topologicalOrder found)) := by
    rw [← hfound]
    rfl
  have hinside : ∀ p, p ∈ w.index.visible (w.index.loopChain t) (w.index.topologicalOrder found) →
      p ∈ found := fun p hp =>
    (w.index.topologicalOrder_perm found).mem_iff.mp (Index.mem_visible_iff.mp hp).1
  have hloops : w.index.LoopsFirst { l | l ∈ w.index.loopChain t ∧ l ∉ found }
      (w.index.scopeOrder t) := by
    rw [horder]
    refine (Index.loopsFirst_withLoops hnest h _ _).mono fun l hl => ?_
    exact ⟨hl.1, fun hmem => hl.2 (hinside l hmem)⟩
  refine ⟨w.index.scopeOrder t, ?_, Index.nodup_scopeOrder, fun l hl hnot => ?_, ?_⟩
  · exact w.previousIds_scope further ht
  · have hlisted : l ∈ w.index.scopeOrder t := Index.mem_scopeOrder_iff.mpr (Or.inl hl)
    exact ⟨hlisted, fun p hp hlp => hloops.idxOf_lt ⟨hl, hnot⟩ hlisted hp hlp⟩
  · rw [horder, Index.filter_withLoops fun l hl hmissing => ?_, List.filter_eq_self]
    · intro p hp
      simp [hinside p hp]
    · have hnot : l ∉ found := fun hmem => hmissing (hnest.mem_visible_of_mem_loopChain h hl
        ((w.index.topologicalOrder_perm found).mem_iff.mpr hmem))
      simp [hl, hnot]

namespace LoopsFirstWitness

/-- A loop in the body of another one. The body of the inner loop begins at its first node, which does not
lead to the other two. -/
def workflow : Workflow where
  nodes := [
    { id := ⟨"1"⟩, type := .loop, inner := [
        { id := ⟨"2"⟩, type := .loop, innerStart := some ⟨"3"⟩, inner := [
            { id := ⟨"3"⟩, type := .code },
            { id := ⟨"4"⟩, type := .code, next := [⟨"5"⟩] },
            { id := ⟨"5"⟩, type := .code }] }] }]

/-- Both loops are missing among what was discovered before the last node. -/
theorem missing_loops_first_nested :
    workflow.index.NestsAcyclically ∧ workflow.index.position? ⟨"5"⟩ = some 4 ∧
      (workflow.index.discover 4).map (·.1) = [3] ∧ ∃ listed : List Nat,
        (workflow.scope [] ⟨"5"⟩).previousIds =
          listed.map (fun p => (workflow.index.nodeAt p).id) ∧
        listed.idxOf 0 < listed.idxOf 1 ∧ listed.idxOf 1 < listed.idxOf 3 ∧
        listed.filter (fun p => p ∉ workflow.index.loopChain 4 ∨ p ∈ [3]) =
          workflow.index.visible (workflow.index.loopChain 4) (workflow.index.topologicalOrder [3]) := by
  have hback : ∀ i ∈ workflow.index.positions, ∀ l ∈ workflow.index.parent i, l < i := by decide
  have hnest : workflow.index.NestsAcyclically := by
    apply not_transGen_self (S := (· > ·))
    intro i l hl
    have hi := Index.lt_of_parent_eq_some workflow.index_wellFormed.parents_eq hl
    exact hback i (List.mem_range.mpr hi) l hl
  have ht : workflow.index.position? ⟨"5"⟩ = some 4 := by decide
  have hfound : (workflow.index.discover 4).map (·.1) = [3] := by decide
  obtain ⟨listed, hids, -, hbefore, hrest⟩ := workflow.missing_loops_first [] hnest ht hfound
  have houter := hbefore 0 (by decide) (by decide)
  have hinner := hbefore 1 (by decide) (by decide)
  have hlisted : 3 ∈ listed := by
    have hmem : 3 ∈ listed.filter (fun p => p ∉ workflow.index.loopChain 4 ∨ p ∈ [3]) := by
      rw [hrest]
      decide
    exact (List.mem_filter.mp hmem).1
  exact ⟨hnest, ht, hfound, listed, hids, houter.2 1 hinner.1 (by decide),
    hinner.2 3 hlisted (by decide), hrest⟩

end LoopsFirstWitness

end FlowScope
