import FlowScope.Proofs.EdgeTable
/-!
The edges of a finished index. A loop leads to where its body begins, and where that is does not
depend on the loops that were looked at before: the edges into a body from inside it are all named by
the nodes themselves. So the finished table holds an edge exactly when the workflow declares one, and
its kind is the first under which it is declared.
-/
namespace FlowScope

namespace Index

variable (ix : Index)

/-- The start node that a loop names, if that is directly in its body. -/
def bodyStart? (l : Nat) : Option Nat :=
  ((ix.nodeAt l).innerStart.bind ix.position?).filter fun s => ix.parent s == some l

/-- The body of the loop at `l` begins at `v`: at the start node of the loop, or else at every node
of the body that no other node of the body leads to. -/
def BeginsAt (l v : Nat) : Prop :=
  ix.bodyStart? l = some v ∨
    (ix.bodyStart? l = none ∧ ix.parent v = some l ∧
      ∀ a, ix.parent a = some l → ix.hasEdge a v = false)

variable {ix}

theorem mem_membersOf {l i : Nat} : i ∈ membersOf ix.parents l ↔ ix.parent i = some l := by
  rw [membersOf, List.mem_filter, List.mem_range, parent, beq_iff_eq]
  constructor
  · exact fun h => h.2
  · intro h
    refine ⟨?_, h⟩
    by_contra hge
    simp [List.getElem?_eq_none (Nat.le_of_not_lt hge)] at h

theorem entries_eq (table : List (List Link)) (l : Nat) :
    Placed.entries ix.placed ix.parents table l =
      match ix.bodyStart? l with
      | some start => [start]
      | none => (membersOf ix.parents l).filter fun v => (membersOf ix.parents l).all fun a =>
          (table[a]?.getD []).all (·.node != v) := by
  have hstart : ((ix.placed[l]?.bind (·.node.innerStart)).bind
      (Placed.position? ix.placed)).filter (membersOf ix.parents l).contains = ix.bodyStart? l := by
    have hnamed : (ix.placed[l]?.bind (·.node.innerStart)) = (ix.nodeAt l).innerStart := by
      rw [nodeAt]
      cases ix.placed[l]? with
      | none => rfl
      | some p => rfl
    rw [bodyStart?, hnamed]
    congr
    funext s
    rw [Bool.eq_iff_iff, List.contains_iff_mem, mem_membersOf, beq_iff_eq]
  rw [← hstart]
  rfl

theorem mem_entries_iff {table : List (List Link)} {l v : Nat} :
    v ∈ Placed.entries ix.placed ix.parents table l ↔
      ix.bodyStart? l = some v ∨ (ix.bodyStart? l = none ∧ ix.parent v = some l ∧
        ∀ a, ix.parent a = some l → ∀ k ∈ table[a]?.getD [], k.node ≠ v) := by
  rw [entries_eq]
  cases ix.bodyStart? l with
  | some start => simp [eq_comm]
  | none => simp [mem_membersOf]

theorem parent_of_mem_entries {table : List (List Link)} {l v : Nat}
    (hv : v ∈ Placed.entries ix.placed ix.parents table l) : ix.parent v = some l := by
  rcases mem_entries_iff.mp hv with hstart | ⟨-, hparent, -⟩
  · rw [bodyStart?, Option.filter_eq_some_iff] at hstart
    simpa using hstart.2
  · exact hparent

/-- Where a body begins depends only on the links from members of the body to members. -/
theorem entries_congr {first second : List (List Link)} {l : Nat}
    (h : ∀ a v, ix.parent a = some l → ix.parent v = some l →
      ((∃ k ∈ first[a]?.getD [], k.node = v) ↔ ∃ k ∈ second[a]?.getD [], k.node = v)) :
    Placed.entries ix.placed ix.parents first l = Placed.entries ix.placed ix.parents second l := by
  rw [entries_eq, entries_eq]
  cases ix.bodyStart? l with
  | some start => rfl
  | none =>
      refine List.filter_congr fun v hv => ?_
      rw [Bool.eq_iff_iff, List.all_eq_true, List.all_eq_true]
      refine forall₂_congr fun a ha => ?_
      have := not_congr (h a v (mem_membersOf.mp ha) (mem_membersOf.mp hv))
      simpa using this

/-- The links of the node at `l` with those to where its body begins, if it is a loop. -/
def entered (ix : Index) (table : List (List Link)) (l : Nat) (links : List Link) : List Link :=
  if (ix.nodeAt l).isLoop then
    ((Placed.entries ix.placed ix.parents table l).map (⟨·, .loopBody⟩)).foldl Link.push links
  else links

theorem any_isLoop_eq (l : Nat) : ix.placed[l]?.any (·.node.isLoop) = (ix.nodeAt l).isLoop := by
  rw [nodeAt]
  cases ix.placed[l]? with
  | none => rfl
  | some p => rfl

theorem enterBody_eq_modify (table : List (List Link)) (l : Nat) :
    Placed.enterBody ix.placed ix.parents table l = table.modify l (ix.entered table l) := by
  rw [Placed.enterBody, any_isLoop_eq]
  apply List.ext_getElem?
  intro i
  rw [List.getElem?_modify]
  by_cases hl : (ix.nodeAt l).isLoop = true
  · simp only [hl, ↓reduceIte, List.getElem?_modify, entered, List.foldl_map]
  · have hentered : ix.entered table l = id := by
      funext links
      rw [entered, if_neg hl, id]
    rw [if_neg hl, hentered]
    split <;> simp

theorem mem_entered_iff {table : List (List Link)} {l v : Nat} {k : EdgeKind} {links : List Link} :
    ⟨v, k⟩ ∈ ix.entered table l links ↔ ⟨v, k⟩ ∈ links ∨
      (k = .loopBody ∧ (ix.nodeAt l).isLoop = true ∧
        v ∈ Placed.entries ix.placed ix.parents table l ∧ ∀ o ∈ links, o.node ≠ v) := by
  rw [entered]
  split
  · next hloop =>
      rw [Link.mem_foldl_push, List.find?_map]
      simp only [hloop, true_and, Option.map_eq_some_iff, Link.mk.injEq]
      refine or_congr_right ⟨?_, ?_⟩
      · rintro ⟨hnone, u, hu, rfl, rfl⟩
        exact ⟨rfl, List.mem_of_find?_eq_some hu, hnone⟩
      · rintro ⟨rfl, hmem, hnone⟩
        refine ⟨hnone, v, ?_, rfl, rfl⟩
        cases hfind : (Placed.entries ix.placed ix.parents table l).find? _ with
        | none => simpa using List.find?_eq_none.mp hfind v hmem
        | some u => simpa using List.find?_some hfind
  · next hloop => simp [hloop]

theorem parent_lt (h : Placed.Sound ix.placed) (hparents : ix.parents = Placed.parents ix.placed)
    {i l : Nat} (hl : ix.parent i = some l) : l < ix.size ∧ l ≠ i := by
  rw [parent, hparents] at hl
  exact h.parents_lt hl

theorem lt_of_parent_eq_some (hparents : ix.parents = Placed.parents ix.placed) {i l : Nat}
    (hl : ix.parent i = some l) : i < ix.size := by
  by_contra hge
  have hlength : ix.parents.length ≤ i := by
    rw [hparents, Placed.parents, List.length_mapIdx]
    exact Nat.le_of_not_lt hge
  simp [parent, List.getElem?_eq_none hlength] at hl

/-- The links that a loop gets into its body are none between two members of another body. -/
theorem mem_entered_of_siblings (h : Placed.Sound ix.placed)
    (hparents : ix.parents = Placed.parents ix.placed) {table : List (List Link)} {l a v : Nat}
    (ha : ix.parent a = some l) (hv : ix.parent v = some l) {k : EdgeKind} {links : List Link} :
    ⟨v, k⟩ ∈ ix.entered table a links ↔ ⟨v, k⟩ ∈ links := by
  rw [mem_entered_iff, or_iff_left]
  rintro ⟨-, -, hentry, -⟩
  have hva := parent_of_mem_entries hentry
  rw [hv, Option.some.injEq] at hva
  exact (parent_lt h hparents ha).2 hva

/-- Where a body begins is the same when other loops have got their links. -/
theorem entries_eq_of_entered (h : Placed.Sound ix.placed)
    (hparents : ix.parents = Placed.parents ix.placed) {stage table : List (List Link)} (l : Nat)
    (hstage : ∀ a, stage[a]? = table[a]? ∨ stage[a]? = table[a]?.map (ix.entered table a)) :
    Placed.entries ix.placed ix.parents stage l = Placed.entries ix.placed ix.parents table l := by
  apply entries_congr
  intro a v ha hv
  have hadded : ∀ k, ⟨v, k⟩ ∈ stage[a]?.getD [] ↔ ⟨v, k⟩ ∈ table[a]?.getD [] := by
    intro k
    rcases hstage a with heq | heq
    · rw [heq]
    · rw [heq]
      cases table[a]? with
      | none => simp
      | some links => exact mem_entered_of_siblings h hparents ha hv
  constructor
  · rintro ⟨⟨_, k⟩, hk, rfl⟩
    exact ⟨_, (hadded k).mp hk, rfl⟩
  · rintro ⟨⟨_, k⟩, hk, rfl⟩
    exact ⟨_, (hadded k).mpr hk, rfl⟩

/-- After the first `m` positions every loop among them has its links into its body, which are the
same as they would be in the table before all loops. -/
theorem getElem?_foldl_enterBody (h : Placed.Sound ix.placed)
    (hparents : ix.parents = Placed.parents ix.placed) (table : List (List Link)) (m i : Nat) :
    ((List.range m).foldl (Placed.enterBody ix.placed ix.parents) table)[i]? =
      if i < m then table[i]?.map (ix.entered table i) else table[i]? := by
  induction m generalizing i with
  | zero => simp
  | succ m ih =>
      rw [List.range_succ, List.foldl_append, List.foldl_cons, List.foldl_nil]
      generalize hstage : (List.range m).foldl (Placed.enterBody ix.placed ix.parents) table = stage
        at ih ⊢
      have hentries : Placed.entries ix.placed ix.parents stage m =
          Placed.entries ix.placed ix.parents table m := by
        apply entries_eq_of_entered h hparents
        intro a
        rw [ih]
        split
        · exact Or.inr rfl
        · exact Or.inl rfl
      have hentered : ix.entered stage m = ix.entered table m := by
        funext links
        rw [entered, entered, hentries]
      rw [enterBody_eq_modify, List.getElem?_modify, ih, hentered]
      by_cases heq : m = i
      · subst heq
        simp
      · have hlt : i < m + 1 ↔ i < m := by omega
        simp [heq, hlt]

/-- An index as a workflow has it: the listing is sound, the parents are those of the listing, and
both tables hold the same edges, all between positions of the listing. -/
structure WellFormed (ix : Index) : Prop where
  sound : Placed.Sound ix.placed
  parents_eq : ix.parents = Placed.parents ix.placed
  out_lt : ∀ {u : Nat} {l : Link}, l ∈ ix.out u → u < ix.size ∧ l.node < ix.size
  mem_into : ∀ {u v : Nat} {k : EdgeKind}, ⟨u, k⟩ ∈ ix.into v ↔ ⟨v, k⟩ ∈ ix.out u

theorem position?_nodeAt (h : ix.WellFormed) {p : Nat} (hp : p < ix.size) :
    ix.position? (ix.nodeAt p).id = some p :=
  (position?_eq_some_iff h.sound).mpr ⟨hp, rfl⟩

/-- The identifiers of places in an index stand for these places. -/
theorem mem_map_id_iff (h : ix.WellFormed) {places : List Nat} (hlt : ∀ p ∈ places, p < ix.size)
    {id : NodeId} :
    id ∈ places.map (fun p => (ix.nodeAt p).id) ↔ ∃ p, ix.position? id = some p ∧ p ∈ places := by
  rw [List.mem_map]
  constructor
  · rintro ⟨p, hp, rfl⟩
    exact ⟨p, position?_nodeAt h (hlt p hp), hp⟩
  · rintro ⟨p, hid, hp⟩
    exact ⟨p, hp, ((position?_eq_some_iff h.sound).mp hid).2⟩

theorem nodup_map_id (h : ix.WellFormed) {places : List Nat} (hlt : ∀ p ∈ places, p < ix.size)
    (hnodup : places.Nodup) : (places.map fun p => (ix.nodeAt p).id).Nodup := by
  apply List.Nodup.map_on _ hnodup
  intro p hp q hq heq
  have hposition := position?_nodeAt h (hlt p hp)
  rw [heq, position?_nodeAt h (hlt q hq)] at hposition
  exact (Option.some.inj hposition).symm

end Index

namespace Workflow

variable (w : Workflow)

/-- The workflow declares an edge of kind `k` from the node at `u` to that at `v`: the node names its
successor, or it is a loop and its body begins there. -/
def Declares (u v : Nat) : EdgeKind → Prop
  | .loopBody => (w.index.nodeAt u).isLoop = true ∧ w.index.BeginsAt u v
  | k => w.index.Onward u v ∧ (w.index.nodeAt v).id ∈ w.named (w.index.nodeAt u) k

theorem index_sound : Placed.Sound w.index.placed :=
  (Placed.sound_addAll none w.nodes [] Placed.Sound.nil (by simp)).1

theorem nodup_nodes_id : (w.index.nodes.map (·.id)).Nodup := by
  have hids := w.index_sound.ids_nodup
  rwa [Index.nodes, List.map_map]

/-- The links by the names that the nodes give, from every position. -/
def plainTable : List (List Link) :=
  w.index.placed.mapIdx fun i p =>
    Placed.links w.index.placed w.index.parents i p.node.loop (w.declared p.node)

theorem length_plainTable : w.plainTable.length = w.index.size := List.length_mapIdx

theorem getElem?_plainTable {u : Nat} (hu : u < w.index.size) :
    w.plainTable[u]? = some (Placed.links w.index.placed w.index.parents u (w.index.nodeAt u).loop
      (w.declared (w.index.nodeAt u))) := by
  have hp := List.getElem?_eq_getElem hu
  rw [plainTable, List.getElem?_mapIdx, hp, Index.nodeAt, hp]
  rfl

theorem getElem?_outgoing (u : Nat) :
    w.index.outgoing[u]? = w.plainTable[u]?.map (w.index.entered w.plainTable u) := by
  have hout : w.index.outgoing =
      (List.range w.index.size).foldl (Placed.enterBody w.index.placed w.index.parents)
        w.plainTable := rfl
  rw [hout, Index.getElem?_foldl_enterBody w.index_sound rfl]
  split
  · rfl
  · next hu =>
      have hlength : w.plainTable.length ≤ u := w.length_plainTable ▸ Nat.le_of_not_lt hu
      simp [List.getElem?_eq_none hlength]

theorem outgoing_eq_map : w.index.outgoing = w.index.positions.map w.index.out := by
  apply List.ext_getElem?
  intro u
  rw [List.getElem?_map, Index.positions]
  by_cases hu : u < w.index.size
  · rw [List.getElem?_range hu, Option.map_some, Index.out, w.getElem?_outgoing,
      w.getElem?_plainTable hu]
    rfl
  · have hlength : w.plainTable.length ≤ u := w.length_plainTable ▸ Nat.le_of_not_lt hu
    have hrange : (List.range w.index.size)[u]? = none := by simpa using hu
    rw [w.getElem?_outgoing, List.getElem?_eq_none hlength, hrange]
    rfl

theorem lt_size_of_mem_out {u : Nat} {l : Link} (hl : l ∈ w.index.out u) : u < w.index.size := by
  by_contra hu
  have hlength : w.plainTable.length ≤ u := w.length_plainTable ▸ Nat.le_of_not_lt hu
  simp [Index.out, w.getElem?_outgoing, List.getElem?_eq_none hlength] at hl

theorem mem_plainTable_iff {u v : Nat} (hu : u < w.index.size) {k : EdgeKind} :
    ⟨v, k⟩ ∈ w.plainTable[u]?.getD [] ↔ k ≠ .loopBody ∧ w.Declares u v k ∧
      ∀ j ∈ k.before, ¬ w.Declares u v j := by
  rw [w.getElem?_plainTable hu, Option.getD_some, Index.mem_links_iff w.index_sound w hu]
  cases k <;> simp [Declares, EdgeKind.before, named] <;> tauto

theorem beginsAt_iff {l v : Nat} :
    w.index.BeginsAt l v ↔ v ∈ Placed.entries w.index.placed w.index.parents w.plainTable l := by
  rw [Index.mem_entries_iff, Index.BeginsAt]
  refine or_congr_right (and_congr_right fun _ => and_congr_right fun hv => forall₂_congr fun a ha => ?_)
  have hsame : ∀ k, ⟨v, k⟩ ∈ w.index.out a ↔ ⟨v, k⟩ ∈ w.plainTable[a]?.getD [] := by
    intro k
    rw [Index.out, w.getElem?_outgoing]
    cases w.plainTable[a]? with
    | none => simp
    | some links => exact Index.mem_entered_of_siblings w.index_sound rfl ha hv
  rw [Index.hasEdge, List.any_eq_false]
  constructor
  · rintro h ⟨_, k⟩ hk rfl
    exact h _ ((hsame k).mpr hk) (by simp)
  · rintro h ⟨_, k⟩ hk heq
    obtain rfl : _ = v := by simpa using heq
    exact h _ ((hsame k).mp hk) rfl

theorem lt_size_of_declares {u v : Nat} {k : EdgeKind} (h : w.Declares u v k) :
    u < w.index.size ∧ v < w.index.size := by
  have hloop : (w.index.nodeAt u).isLoop = true → w.index.BeginsAt u v →
      u < w.index.size ∧ v < w.index.size := by
    intro hloop hbegins
    have hv := Index.parent_of_mem_entries (w.beginsAt_iff.mp hbegins)
    exact ⟨(Index.parent_lt w.index_sound rfl hv).1, Index.lt_of_parent_eq_some rfl hv⟩
  cases k with
  | loopBody => exact hloop h.1 h.2
  | _ => exact ⟨h.1.source_lt, h.1.target_lt⟩

/-- A loop gets a link to where its body begins when it is not named in another way. -/
theorem forall_plainTable_ne_iff {u v : Nat} (hu : u < w.index.size) :
    (∀ o ∈ w.plainTable[u]?.getD [], o.node ≠ v) ↔
      ∀ j ∈ EdgeKind.loopBody.before, ¬ w.Declares u v j := by
  constructor
  · intro h j hj hdeclares
    obtain ⟨i, hi, hfirst⟩ := EdgeKind.exists_first
      (P := fun i => i ≠ .loopBody ∧ w.Declares u v i) ⟨EdgeKind.mem_before_loopBody.mp hj, hdeclares⟩
    have hplain : ⟨v, i⟩ ∈ w.plainTable[u]?.getD [] := by
      rw [w.mem_plainTable_iff hu]
      refine ⟨hi.1, hi.2, fun i' hi' hd => hfirst i' hi' ⟨?_, hd⟩⟩
      exact EdgeKind.ne_loopBody_of_mem_before hi'
    exact h _ hplain rfl
  · rintro h ⟨_, j⟩ hj rfl
    obtain ⟨hne, hdeclares, -⟩ := (w.mem_plainTable_iff hu).mp hj
    exact h j (EdgeKind.mem_before_loopBody.mpr hne) hdeclares

/-- The finished table holds an edge exactly when the workflow declares one, and the kind of the edge
is the first under which it is declared. -/
theorem mem_out_iff {u v : Nat} {k : EdgeKind} :
    ⟨v, k⟩ ∈ w.index.out u ↔ w.Declares u v k ∧ ∀ j ∈ k.before, ¬ w.Declares u v j := by
  by_cases hu : u < w.index.size
  · have hplain := w.mem_plainTable_iff hu (v := v) (k := k)
    have hnone := w.forall_plainTable_ne_iff hu (v := v)
    rw [w.getElem?_plainTable hu, Option.getD_some] at hplain hnone
    rw [Index.out, w.getElem?_outgoing, w.getElem?_plainTable hu, Option.map_some, Option.getD_some,
      Index.mem_entered_iff, ← w.beginsAt_iff, hnone, hplain]
    by_cases hk : k = .loopBody
    · subst hk
      simp [Declares, and_assoc]
    · simp [hk]
  · constructor
    · exact fun hl => absurd (w.lt_size_of_mem_out hl) hu
    · exact fun h => absurd (w.lt_size_of_declares h.1).1 hu

theorem incoming_eq_map :
    w.index.incoming = (List.range w.index.size).map (Link.into w.index.outgoing) :=
  rfl

theorem index_wellFormed : w.index.WellFormed where
  sound := w.index_sound
  parents_eq := rfl
  out_lt hl := w.lt_size_of_declares (w.mem_out_iff.mp hl).1
  mem_into {u v k} := by
    rw [Index.into, w.incoming_eq_map, List.getElem?_map]
    by_cases hv : v < w.index.size
    · rw [List.getElem?_range hv]
      exact Link.mem_into
    · have hrange : (List.range w.index.size)[v]? = none := by simpa using hv
      rw [hrange]
      constructor
      · simp
      · exact fun hl => absurd (w.lt_size_of_declares (w.mem_out_iff.mp hl).1).2 hv

end Workflow

end FlowScope
