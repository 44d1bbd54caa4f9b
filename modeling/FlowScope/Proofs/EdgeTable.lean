import FlowScope.Proofs.Listing
/-!
The table of edges. There is an edge between two positions exactly when the workflow declares one,
and its kind is the first of the kinds under which it is declared. The table of incoming edges is the
same table, read from the other end.
-/
namespace FlowScope

namespace EdgeKind

/-- The kinds that count before a kind. -/
def before : EdgeKind → List EdgeKind
  | next => []
  | branch => [next]
  | exception => [next, branch]
  | supplemental => [next, branch, exception]
  | loopBody => [next, branch, exception, supplemental]

theorem mem_before_loopBody {k : EdgeKind} : k ∈ loopBody.before ↔ k ≠ loopBody := by
  cases k <;> simp [before]

theorem ne_loopBody_of_mem_before {j k : EdgeKind} (h : j ∈ k.before) : j ≠ loopBody := by
  rintro rfl
  cases k <;> simp [before] at h

theorem exists_first {P : EdgeKind → Prop} {k : EdgeKind} (h : P k) :
    ∃ j, P j ∧ ∀ i ∈ j.before, ¬ P i := by
  by_contra hnone
  push Not at hnone
  have hnext : ¬ P next := fun hj => by simpa [before] using hnone _ hj
  have hbranch : ¬ P branch := fun hj => by simpa [before, hnext] using hnone _ hj
  have hexception : ¬ P exception := fun hj => by simpa [before, hnext, hbranch] using hnone _ hj
  have hsupplemental : ¬ P supplemental := fun hj => by
    simpa [before, hnext, hbranch, hexception] using hnone _ hj
  have hloopBody : ¬ P loopBody := fun hj => by
    simpa [before, hnext, hbranch, hexception, hsupplemental] using hnone _ hj
  cases k <;> contradiction

theorem find?_flatMap_all (links : EdgeKind → List Link) (hkind : ∀ k, ∀ l ∈ links k, l.kind = k)
    (t : Nat) (k : EdgeKind) :
    (all.flatMap links).find? (·.node == t) = some ⟨t, k⟩ ↔
      ⟨t, k⟩ ∈ links k ∧ ∀ j ∈ k.before, ⟨t, j⟩ ∉ links j := by
  have hsome : ∀ j l, (links j).find? (·.node == t) = some l ↔ l = ⟨t, j⟩ ∧ ⟨t, j⟩ ∈ links j := by
    intro j l
    constructor
    · intro hfind
      have hmem := List.mem_of_find?_eq_some hfind
      have hnode : l.node = t := by simpa using List.find?_some hfind
      obtain rfl : l = ⟨t, j⟩ := by
        rw [← hnode, ← hkind j l hmem]
      exact ⟨rfl, hmem⟩
    · rintro ⟨rfl, hmem⟩
      cases hfind : (links j).find? (·.node == t) with
      | none => simpa using List.find?_eq_none.mp hfind ⟨t, j⟩ hmem
      | some found =>
          have hfound := List.mem_of_find?_eq_some hfind
          have hnode : found.node = t := by simpa using List.find?_some hfind
          rw [← hnode, ← hkind j found hfound]
  have hnone : ∀ j, (links j).find? (·.node == t) = none ↔ ⟨t, j⟩ ∉ links j := by
    intro j
    constructor
    · intro hfind hmem
      simp [(hsome j ⟨t, j⟩).mpr ⟨rfl, hmem⟩] at hfind
    · intro hmem
      refine Option.eq_none_iff_forall_ne_some.mpr fun l hfind => ?_
      exact hmem ((hsome j l).mp hfind).2
  cases k <;>
    simp [all, before, List.find?_append, Option.or_eq_some_iff, hsome, hnone] <;> tauto

end EdgeKind

namespace Link

theorem mem_push {links : List Link} {a l : Link} :
    l ∈ push links a ↔ l ∈ links ∨ (l = a ∧ ∀ k ∈ links, k.node ≠ a.node) := by
  rw [push]
  split
  · next h =>
      obtain ⟨k, hk, hnode⟩ : ∃ k ∈ links, k.node = a.node := by simpa using h
      constructor
      · exact Or.inl
      · rintro (hl | ⟨-, hnone⟩)
        · exact hl
        · exact absurd hnode (hnone k hk)
  · next h =>
      have hnone : ∀ k ∈ links, k.node ≠ a.node := by simpa using h
      rw [List.mem_append, List.mem_singleton, and_iff_left hnone]

/-- Pushing links one after the other leaves the old ones and, for every node without an old one,
the first of the new ones. -/
theorem mem_foldl_push {more links : List Link} {l : Link} :
    l ∈ more.foldl push links ↔
      l ∈ links ∨ ((∀ k ∈ links, k.node ≠ l.node) ∧ more.find? (·.node == l.node) = some l) := by
  induction more generalizing links with
  | nil => simp
  | cons a rest ih =>
      rw [List.foldl_cons, ih]
      by_cases hnode : a.node = l.node
      · have hthere : ¬ ∀ k ∈ push links a, k.node ≠ l.node := by
          intro hnone
          by_cases hold : ∀ k ∈ links, k.node ≠ a.node
          · exact hnone a (mem_push.mpr (Or.inr ⟨rfl, hold⟩)) hnode
          · push Not at hold
            obtain ⟨k, hk, heq⟩ := hold
            exact hnone k (mem_push.mpr (Or.inl hk)) (heq.trans hnode)
        rw [List.find?_cons_of_pos (by simpa using hnode), mem_push, hnode]
        constructor
        · rintro ((hl | ⟨rfl, hnone⟩) | ⟨hnone, -⟩)
          · exact Or.inl hl
          · exact Or.inr ⟨hnone, rfl⟩
          · exact absurd hnone hthere
        · rintro (hl | ⟨hnone, heq⟩)
          · exact Or.inl (Or.inl hl)
          · exact Or.inl (Or.inr ⟨(Option.some.inj heq).symm, hnone⟩)
      · have hne : l ≠ a := fun heq => hnode (heq ▸ rfl)
        have hpushed : (∀ k ∈ push links a, k.node ≠ l.node) ↔ ∀ k ∈ links, k.node ≠ l.node := by
          constructor
          · exact fun h k hk => h k (mem_push.mpr (Or.inl hk))
          · intro h k hk
            rcases mem_push.mp hk with hk | ⟨rfl, -⟩
            · exact h k hk
            · exact hnode
        rw [List.find?_cons_of_neg (by simpa using hnode), mem_push, hpushed]
        simp [hne]

theorem mem_into {table : List (List Link)} {s t : Nat} {k : EdgeKind} :
    ⟨s, k⟩ ∈ into table t ↔ ⟨t, k⟩ ∈ table[s]?.getD [] := by
  simp only [into, List.mem_flatMap, List.mem_range, List.mem_map, List.mem_filter, beq_iff_eq,
    Link.mk.injEq]
  constructor
  · rintro ⟨s', -, l, ⟨hl, rfl⟩, rfl, rfl⟩
    exact hl
  · intro hl
    have hs : s < table.length := by
      by_contra hge
      simp [List.getElem?_eq_none (Nat.le_of_not_lt hge)] at hl
    exact ⟨s, hs, ⟨t, k⟩, ⟨hl, rfl⟩, rfl, rfl⟩

end Link

/-- The names under which a node gives its successors, by the kind of the edge. -/
def Workflow.named (w : Workflow) (n : Node) : EdgeKind → List NodeId
  | .next => n.next
  | .branch => n.branches
  | .exception => n.handlers
  | .supplemental => (w.edges.filter (·.source == n.id)).map (·.target)
  | .loopBody => []

theorem Workflow.declared_eq_flatMap (w : Workflow) (n : Node) :
    w.declared n = EdgeKind.all.flatMap fun k => (w.named n k).map (·, k) := by
  simp [declared, EdgeKind.all, named, Function.comp_def]

namespace Index

variable {ix : Index}

theorem position?_eq_some_iff (h : Placed.Sound ix.placed) {id : NodeId} {i : Nat} :
    ix.position? id = some i ↔ i < ix.size ∧ (ix.nodeAt i).id = id := by
  rw [position?, h.position?_eq_some_iff]
  constructor
  · rintro ⟨p, hp, hid⟩
    refine ⟨(List.getElem?_eq_some_iff.mp hp).1, ?_⟩
    simpa [nodeAt, hp] using hid
  · rintro ⟨hi, hid⟩
    have hp := List.getElem?_eq_getElem hi
    exact ⟨_, hp, by simpa [nodeAt, hp] using hid⟩

/-- The position `v` counts as a successor of the node at `u`: it is another one, neither that of the
loop that the node says it is in nor that of the enclosing node. -/
structure Onward (ix : Index) (u v : Nat) : Prop where
  source_lt : u < ix.size
  target_lt : v < ix.size
  ne : v ≠ u
  not_loop : (ix.nodeAt u).loop ≠ some (ix.nodeAt v).id
  not_parent : ix.parent u ≠ some v

/-- The link that a name stands for in the node at `u`, if it counts at all. -/
def linkTo? (ix : Index) (u : Nat) (name : NodeId × EdgeKind) : Option Link :=
  ((ix.position? name.1).filter fun t =>
    !(some name.1 == (ix.nodeAt u).loop || some t == ix.parent u || t == u)).map (⟨·, name.2⟩)

theorem links_eq_foldl_push (ix : Index) (u : Nat) (declared : List (NodeId × EdgeKind)) :
    Placed.links ix.placed ix.parents u (ix.nodeAt u).loop declared =
      (declared.filterMap (ix.linkTo? u)).foldl Link.push [] := by
  rw [Placed.links, List.foldl_filterMap]
  congr
  funext links name
  obtain ⟨id, kind⟩ := name
  simp only [linkTo?, position?, parent]
  cases Placed.position? ix.placed id with
  | none => simp
  | some t =>
      by_cases hguard :
          (some id == (ix.nodeAt u).loop || some t == ix.parents[u]?.join || t == u) = true
      · simp [hguard, Option.filter]
      · simp [hguard, Option.filter]

theorem linkTo?_eq_some_iff (h : Placed.Sound ix.placed) {u : Nat} (hu : u < ix.size)
    {name : NodeId × EdgeKind} {l : Link} :
    ix.linkTo? u name = some l ↔
      l.kind = name.2 ∧ ix.Onward u l.node ∧ (ix.nodeAt l.node).id = name.1 := by
  obtain ⟨id, k⟩ := name
  obtain ⟨t, kind⟩ := l
  simp only [linkTo?, Option.map_eq_some_iff, Option.filter_eq_some_iff, Link.mk.injEq,
    position?_eq_some_iff h, Bool.not_eq_true', Bool.or_eq_false_iff, beq_eq_false_iff_ne]
  constructor
  · rintro ⟨_, ⟨⟨hlt, rfl⟩, ⟨hloop, hparent⟩, hne⟩, rfl, rfl⟩
    exact ⟨rfl, ⟨hu, hlt, hne, Ne.symm hloop, Ne.symm hparent⟩, rfl⟩
  · rintro ⟨rfl, ⟨-, hlt, hne, hloop, hparent⟩, rfl⟩
    exact ⟨t, ⟨⟨hlt, rfl⟩, ⟨Ne.symm hloop, Ne.symm hparent⟩, hne⟩, rfl, rfl⟩

/-- The links from the node at `u` that its names give: each of the first kind under which the
successor is named. -/
theorem mem_links_iff (h : Placed.Sound ix.placed) (w : Workflow) {u : Nat} (hu : u < ix.size)
    {v : Nat} {k : EdgeKind} :
    ⟨v, k⟩ ∈ Placed.links ix.placed ix.parents u (ix.nodeAt u).loop (w.declared (ix.nodeAt u)) ↔
      ix.Onward u v ∧ (ix.nodeAt v).id ∈ w.named (ix.nodeAt u) k ∧
        ∀ j ∈ k.before, (ix.nodeAt v).id ∉ w.named (ix.nodeAt u) j := by
  let block := fun j => ((w.named (ix.nodeAt u) j).map (·, j)).filterMap (ix.linkTo? u)
  have hblock : ∀ j l, l ∈ block j ↔
      l.kind = j ∧ ix.Onward u l.node ∧ (ix.nodeAt l.node).id ∈ w.named (ix.nodeAt u) j := by
    intro j l
    simp only [block, List.mem_filterMap, List.mem_map]
    constructor
    · rintro ⟨_, ⟨id, hid, rfl⟩, hlink⟩
      obtain ⟨hkind, honward, rfl⟩ := (linkTo?_eq_some_iff h hu).mp hlink
      exact ⟨hkind, honward, hid⟩
    · rintro ⟨hkind, honward, hid⟩
      exact ⟨_, ⟨_, hid, rfl⟩, (linkTo?_eq_some_iff h hu).mpr ⟨hkind, honward, rfl⟩⟩
  rw [links_eq_foldl_push, Link.mem_foldl_push, w.declared_eq_flatMap, List.filterMap_flatMap,
    EdgeKind.find?_flatMap_all block (fun j l hl => ((hblock j l).mp hl).1)]
  simp only [hblock, true_and]
  constructor
  · rintro (hnil | ⟨-, ⟨honward, hid⟩, hfirst⟩)
    · simp at hnil
    · exact ⟨honward, hid, fun j hj hmem => hfirst j hj ⟨honward, hmem⟩⟩
  · rintro ⟨honward, hid, hfirst⟩
    exact Or.inr ⟨by simp, ⟨honward, hid⟩, fun j hj hmem => hfirst j hj hmem.2⟩

end Index

end FlowScope
