import FlowScope.Proofs.BodyMembers
import FlowScope.Proofs.EnclosingLoops
import FlowScope.Proofs.LeastOrder
import Mathlib.Data.List.Forall2
/-!
What a loop sees of its own body. There is an entry for the end node of the body and for each node that
leads to it inside the body, with the values of all rounds collected into arrays, and last an entry of
the loop itself if it has variables. None of these nodes stands before the loop, as long as the loop is not
in its own body.
-/
namespace FlowScope

open Relation

/-- An argument of a node in a body as the loop sees it: an array that remembers the former type, with
nothing else changed. -/
structure Argument.CollectedFrom (former a : Argument) : Prop where
  isArray : ∃ element, a.type = some (.array element)
  originType : a.originType = former.type
  kept : { a with type := former.type, originType := former.originType } = former

theorem Argument.collectedFrom_collected (a : Argument) : a.CollectedFrom a.collected where
  isArray := by
    cases htype : a.type with
    | none => exact ⟨.object, by simp [collected, DataType.collected, htype]⟩
    | some type => cases type <;> simp [collected, DataType.collected, htype]
  originType := rfl
  kept := by
    cases a
    rfl

/-- From outside, a node exposes the same whatever stands before it. -/
theorem Node.exposed_outside_eq (n : Node) (system : List Argument) (first second : ArgumentMap) :
    n.exposed system false first = n.exposed system false second := by
  rw [exposed, exposed]
  cases n.type with
  | loop => rw [if_neg Bool.false_ne_true, if_neg Bool.false_ne_true]
  | _ => rfl

/-- What holds of the entry that is made at any place, whatever comes before, holds of all entries. -/
theorem forall₂_collectScope {entryAt : Nat → ArgumentMap → ScopeNode} {R : Nat → ScopeNode → Prop}
    {nodes : List Nat} (h : ∀ p ∈ nodes, ∀ m, R p (entryAt p m)) (m : ArgumentMap) :
    List.Forall₂ R nodes (collectScope entryAt nodes m).1 := by
  induction nodes generalizing m with
  | nil => exact .nil
  | cons p rest ih =>
      rw [collectScope]
      refine .cons (h p List.mem_cons_self m) (ih (fun q hq => ?_) _)
      exact h q (List.mem_cons_of_mem p hq)

namespace Index

/-- The entry of the node at `p` for the loop in whose body it is. -/
structure BodyEntry (ix : Index) (system : List Argument) (p : Nat) (e : ScopeNode) : Prop where
  position : ix.position? e.id = some p
  name : e.name = (ix.nodeAt p).name
  type : e.type = (ix.nodeAt p).type
  arguments : ∀ m, List.Forall₂ Argument.CollectedFrom ((ix.nodeAt p).exposed system false m) e.arguments

/-- The nodes of its own body that the loop at `l` sees, in their order. -/
structure BodyPlaces (ix : Index) (l : Nat) (places : List Nat) : Prop where
  mem_iff : ∀ p, p ∈ places ↔ ∃ e, ix.bodyEnd? l = some e ∧ ReflTransGen (ix.LeadsInBody l) p e
  nodup : places.Nodup
  follows : (∀ c, ¬TransGen (EdgeWithin ix.hasEdge { x | x ∈ places }) c c) →
    Follows ix.hasEdge places

variable {ix : Index} {system : List Argument} {l p t : Nat}

/-- What is seen of a body is ordered like any other nodes. -/
theorem exists_bodyOrder_eq (ix : Index) (l : Nat) :
    ∃ places, places.Nodup ∧ ix.bodyOrder l = ix.topologicalOrder places := by
  rw [bodyOrder]
  split
  · exact ⟨[], List.nodup_nil, rfl⟩
  · exact ⟨_, List.nodup_range.filter _, rfl⟩

theorem bodyPlaces_bodyOrder (h : ix.WellFormed) (l : Nat) : ix.BodyPlaces l (ix.bodyOrder l) := by
  obtain ⟨places, hnodup, horder⟩ := ix.exists_bodyOrder_eq l
  have hperm : (ix.bodyOrder l).Perm places := horder ▸ ix.topologicalOrder_perm places
  refine ⟨fun p => ?_, hperm.nodup_iff.mpr hnodup, fun hacyclic => ?_⟩
  · rw [mem_bodyOrder_iff h]
    refine exists_congr fun e => and_congr_right fun hend => ?_
    exact reflTransGen_leadsFromBody_iff (parent_of_bodyEnd? hend)
  · simp only [hperm.mem_iff] at hacyclic
    rw [horder]
    exact ix.follows_topologicalOrder hnodup hacyclic

theorem BodyPlaces.parent_eq {places : List Nat} (hplaces : ix.BodyPlaces l places) (hp : p ∈ places) :
    ix.parent p = some l := by
  obtain ⟨e, hend, hway⟩ := (hplaces.mem_iff p).mp hp
  have he := parent_of_bodyEnd? hend
  exact parent_of_leadsFromBody he ((reflTransGen_leadsFromBody_iff he).mpr hway)

theorem bodyEntry_innerEntry (h : ix.WellFormed) (hp : p < ix.size) (m : ArgumentMap) :
    ix.BodyEntry system p (ix.innerEntry system p m) where
  position := position?_nodeAt h hp
  name := rfl
  type := rfl
  arguments other := by
    rw [innerEntry, entry, Node.exposed_outside_eq _ system m other, List.forall₂_map_right_iff,
      List.forall₂_same]
    intro a _
    exact a.collectedFrom_collected

/-- A node in the body of a loop is in sight before the loop only if the loop is in its own body. -/
theorem transGen_of_mem_scopeOrder (h : ix.WellFormed) (hparent : ix.parent p = some t)
    (hp : p ∈ ix.scopeOrder t) : TransGen ix.EnclosedBy t t := by
  rcases mem_scopeOrder_iff.mp hp with hchain | ⟨-, hvisible⟩
  · exact ((mem_loopChain_iff h).mp hchain).2.tail hparent
  · exact absurd rfl (ne_of_mem_loopChain (hvisible t hparent))

theorem BodyPlaces.exists_of_mem {places : List Nat} {entries : List ScopeNode}
    (hplaces : ix.BodyPlaces l places) (hentries : List.Forall₂ (ix.BodyEntry system) places entries)
    {e : ScopeNode} (he : e ∈ entries) :
    ∃ p, ix.parent p = some l ∧ ix.position? e.id = some p := by
  obtain ⟨i, hi, rfl⟩ := List.mem_iff_getElem.mp he
  have hi' : i < places.length := hentries.length_eq ▸ hi
  exact ⟨places[i], hplaces.parent_eq (List.getElem_mem hi'), (hentries.get hi' hi).position⟩

/-- After the entries of its body, a loop with variables has an entry of its own. -/
theorem inner_scopeAt (h : ix.WellFormed) (system : List Argument)
    (hloop : (ix.nodeAt t).isLoop = true) :
    ∃ entries own, (ix.scopeAt system t).inner = entries ++ own ∧
      List.Forall₂ (ix.BodyEntry system) (ix.bodyOrder t) entries ∧
      (∀ e ∈ own, e.id = (ix.nodeAt t).id) ∧
      own.length = if (ix.nodeAt t).config.vars = [] then 0 else 1 := by
  have hentries : ∀ m, List.Forall₂ (ix.BodyEntry system) (ix.bodyOrder t)
      (collectScope (ix.innerEntry system) (ix.bodyOrder t) m).1 := fun m =>
    forall₂_collectScope (fun p hp m => bodyEntry_innerEntry h (lt_of_mem_bodyOrder h hp) m) m
  have hown : ∀ m, (∀ e ∈ ix.ownEntry t m, e.id = (ix.nodeAt t).id) ∧
      (ix.ownEntry t m).length = if (ix.nodeAt t).config.vars = [] then 0 else 1 := by
    intro m
    rw [ownEntry, Node.loopVariables]
    cases (ix.nodeAt t).config.vars with
    | nil => simp
    | cons v rest => simp [entry]
  simp only [scopeAt, hloop, ↓reduceIte]
  exact ⟨_, _, rfl, hentries _, hown _⟩

end Index

/-- A loop sees, of its own body, the end node and what leads to it inside the body, in an order that
follows the edges if it can; each with what it exposes collected into arrays. After these it sees itself if
it has variables. No node of the body is in its scope in another way, unless the loop is in its own
body. -/
theorem Workflow.inner_of_loop (w : Workflow) (further : List Argument) {target : NodeId} {t : Nat}
    (ht : w.index.position? target = some t) (hloop : (w.index.nodeAt t).isLoop = true) :
    ∃ places entries own, (w.scope further target).inner = entries ++ own ∧
      w.index.BodyPlaces t places ∧
      List.Forall₂ (w.index.BodyEntry (w.allSystemVariables further)) places entries ∧
      (∀ e ∈ entries, e.id ≠ target) ∧ (∀ e ∈ own, e.id = target) ∧
      own.length = (if (w.index.nodeAt t).config.vars = [] then 0 else 1) ∧
      (¬TransGen w.index.EnclosedBy t t →
        ∀ e ∈ entries, e.id ∉ (w.scope further target).previousIds) := by
  have h := w.index_wellFormed
  have hplaces := Index.bodyPlaces_bodyOrder h t
  have hid := ((Index.position?_eq_some_iff h.sound).mp ht).2
  rw [w.previousIds_scope further ht, w.scope_eq_scopeAt further ht]
  obtain ⟨entries, own, hinner, hentries, hown, hlength⟩ :=
    Index.inner_scopeAt h (w.allSystemVariables further) hloop
  refine ⟨_, entries, own, hinner, hplaces, hentries, fun e he heq => ?_, fun e he => ?_, hlength,
    fun hfree e he hmem => ?_⟩
  · obtain ⟨p, hparent, hp⟩ := hplaces.exists_of_mem hentries he
    rw [heq, ht] at hp
    exact (Index.parent_lt h.sound h.parents_eq hparent).2 (Option.some.inj hp)
  · rw [hown e he, hid]
  · obtain ⟨p, hparent, hp⟩ := hplaces.exists_of_mem hentries he
    rw [Index.mem_map_id_iff h fun p hp => Index.lt_of_mem_scopeOrder h hp] at hmem
    obtain ⟨q, hq, hmem⟩ := hmem
    obtain rfl : p = q := Option.some.inj (hp.symm.trans hq)
    exact hfree (Index.transGen_of_mem_scopeOrder h hparent hmem)

namespace BodyEntriesWitness

/-- A loop with a variable. Of the three nodes in its body the first is the end, the second leads to it, and
the third leads nowhere. -/
def workflow : Workflow where
  nodes := [
    { id := ⟨"1"⟩, type := .start, next := [⟨"2"⟩] },
    { id := ⟨"2"⟩, type := .loop, innerEnd := some ⟨"3"⟩, config := { vars := [.typed "sum" .integer] }
      inner := [
        { id := ⟨"3"⟩, type := .code, config := { outputs := [.typed "square" .integer] } },
        { id := ⟨"4"⟩, type := .code, next := [⟨"3"⟩] },
        { id := ⟨"5"⟩, type := .code }] }]

theorem inner_of_loop_sum :
    workflow.index.position? ⟨"2"⟩ = some 1 ∧ (workflow.index.nodeAt 1).isLoop = true ∧
      (workflow.scope [] ⟨"2"⟩).inner.map (·.id) = [⟨"4"⟩, ⟨"3"⟩, ⟨"2"⟩] ∧
      ∃ places entries own, (workflow.scope [] ⟨"2"⟩).inner = entries ++ own ∧
        workflow.index.BodyPlaces 1 places ∧
        List.Forall₂ (workflow.index.BodyEntry (workflow.allSystemVariables [])) places entries ∧
        own.length = 1 ∧ ∀ e ∈ entries, e.id ∉ (workflow.scope [] ⟨"2"⟩).previousIds := by
  have ht : workflow.index.position? ⟨"2"⟩ = some 1 := by decide
  have hloop : (workflow.index.nodeAt 1).isLoop = true := by decide
  have hfree : ¬TransGen workflow.index.EnclosedBy 1 1 := by
    intro hway
    obtain ⟨l, hl, -⟩ := TransGen.head'_iff.mp hway
    have hnone : workflow.index.parent 1 = none := by decide
    exact Option.some_ne_none l (hl.symm.trans hnone)
  obtain ⟨places, entries, own, hinner, hplaces, hentries, -, -, hlength, hapart⟩ :=
    workflow.inner_of_loop [] ht hloop
  exact ⟨ht, hloop, by decide, places, entries, own, hinner, hplaces, hentries, hlength, hapart hfree⟩

end BodyEntriesWitness

end FlowScope
