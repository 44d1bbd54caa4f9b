import FlowScope.Proofs.Discovery
/-!
Discovery by walking all ways. The predecessors of a target are said to be those met on a walk along
all simple ways from the roots, each recorded when it is met first. Discovery does not take a way on
from a node that has been recorded before, nor into nodes that do not lead to the target. Here all
simple ways are listed, and both walks are shown to record the same nodes in the same order.

The argument is about nodes that have been left behind: once a walk has gone back over a node, all
that follows that node is recorded, so that to come to it again by another way adds nothing.
-/
namespace FlowScope

open Relation

/-- The simple ways that begin with the places `path` and go on to `v` and to at most `depth` further
places, in the order of a depth-first walk. No way goes on from `stop`. -/
def simpleWays (next : Nat → List Nat) (stop : Nat) : Nat → List Nat → Nat → List (List Nat)
  | 0, path, v => [path ++ [v]]
  | depth + 1, path, v =>
      (path ++ [v]) ::
        if v = stop then []
        else ((next v).filter (· ∉ path ++ [v])).flatMap (simpleWays next stop depth (path ++ [v]))

/-- The places that the ways lead to, one for each way. -/
def ends (ways : List (List Nat)) : List Nat := ways.filterMap List.getLast?

/-- Record the places of a list that are not recorded yet. -/
def recordFirst (found visits : List Nat) : List Nat :=
  visits.foldl (fun found v => if v ∈ found then found else found ++ [v]) found

/-- Where a node on no current path has been recorded, so has all that follows it. -/
def LeftBehind (next : Nat → List Nat) (found path : List Nat) : Prop :=
  ∀ x ∈ found, x ∉ path → ∀ y ∈ next x, y ∈ found

variable {next : Nat → List Nat} {stop : Nat}

/-- The successors of a place for a walk that does not go on from `stop`. -/
def stopAt (next : Nat → List Nat) (stop v : Nat) : List Nat := if v = stop then [] else next v

theorem mem_of_mem_stopAt {u v : Nat} (h : u ∈ stopAt next stop v) : u ∈ next v := by
  rw [stopAt] at h
  split at h
  · simp at h
  · exact h

theorem ends_flatMap {places : List Nat} (ways : Nat → List (List Nat)) :
    ends (places.flatMap ways) = places.flatMap fun v => ends (ways v) := by
  rw [ends, List.filterMap_flatMap]
  rfl

theorem ends_simpleWays_zero (path : List Nat) (v : Nat) :
    ends (simpleWays next stop 0 path v) = [v] := by
  simp [ends, simpleWays]

theorem ends_simpleWays_succ (depth : Nat) (path : List Nat) (v : Nat) :
    ends (simpleWays next stop (depth + 1) path v) =
      v :: ((stopAt next stop v).filter (· ∉ path ++ [v])).flatMap fun u =>
        ends (simpleWays next stop depth (path ++ [v]) u) := by
  rw [simpleWays, stopAt, ← ends_flatMap]
  split <;> simp [ends]

theorem recordFirst_append (found first second : List Nat) :
    recordFirst found (first ++ second) = recordFirst (recordFirst found first) second :=
  List.foldl_append

theorem recordFirst_eq_self {found visits : List Nat} (h : ∀ v ∈ visits, v ∈ found) :
    recordFirst found visits = found := by
  induction visits with
  | nil => rfl
  | cons v rest ih =>
      rw [recordFirst, List.foldl_cons, if_pos (h v List.mem_cons_self)]
      exact ih fun u hu => h u (List.mem_cons_of_mem v hu)

theorem recordFirst_cons_of_notMem {found : List Nat} {v : Nat} (hv : v ∉ found)
    (rest : List Nat) : recordFirst found (v :: rest) = recordFirst (found ++ [v]) rest := by
  rw [recordFirst, List.foldl_cons, if_neg hv, recordFirst]

theorem recordFirst_eq_append_eraseDups (found visits : List Nat) :
    recordFirst found visits = found ++ (visits.filter (· ∉ found)).eraseDups := by
  induction visits generalizing found with
  | nil => simp [recordFirst]
  | cons v rest ih =>
      by_cases hv : v ∈ found
      · rw [recordFirst, List.foldl_cons, if_pos hv, List.filter_cons_of_neg (by simpa using hv)]
        exact ih found
      · rw [recordFirst_cons_of_notMem hv, ih, List.filter_cons_of_pos (by simpa using hv),
          List.eraseDups_cons, List.filter_filter]
        have hsame : rest.filter (· ∉ found ++ [v]) =
            rest.filter fun u => !u == v && decide (u ∉ found) := by
          refine List.filter_congr fun u _ => ?_
          rw [Bool.eq_iff_iff]
          simp [and_comm]
        rw [hsame, List.append_assoc, List.singleton_append]

/-- A way that comes to a recorded place off the path meets recorded places only. -/
theorem mem_of_mem_ends (depth : Nat) {path found : List Nat} {v : Nat}
    (hleft : LeftBehind (stopAt next stop) found path) (hv : v ∈ found) (hpath : v ∉ path) :
    ∀ e ∈ ends (simpleWays next stop depth path v), e ∈ found := by
  induction depth generalizing path v with
  | zero =>
      rw [ends_simpleWays_zero]
      simpa using hv
  | succ depth ih =>
      rw [ends_simpleWays_succ]
      intro e he
      rcases List.mem_cons.mp he with rfl | he
      · exact hv
      · obtain ⟨u, hu, he⟩ := List.mem_flatMap.mp he
        obtain ⟨hnext, hnew⟩ := List.mem_filter.mp hu
        refine ih ?_ (hleft v hv hpath u hnext) (by simpa using hnew) e he
        exact fun x hx hoff => hleft x hx fun hmem => hoff (List.mem_append_left _ hmem)

/-- To record `visits` is what an ordinary walk from `pending` does, and it leaves all behind that is
not on the path. -/
def Retraces (next : Nat → List Nat) (stop : Nat) (path found pending visits : List Nat) : Prop :=
  Explored (stopAt next stop) (fun _ => true) pending found (recordFirst found visits) ∧
    LeftBehind (stopAt next stop) (recordFirst found visits) path

theorem LeftBehind.push {path found : List Nat} (hleft : LeftBehind next found path) (v : Nat) :
    LeftBehind next (found ++ [v]) (path ++ [v]) := by
  intro x hx hoff y hy
  rw [List.mem_append, not_or] at hoff
  have hold : x ∈ found := (List.mem_append.mp hx).resolve_right hoff.2
  exact List.mem_append_left _ (hleft x hold hoff.1 y hy)

/-- With all of the places of a list that are not on the path, the list itself is retraced. -/
theorem Retraces.flatMap {path : List Nat} (visits : Nat → List Nat) {places : List Nat}
    (hvisits : ∀ v ∈ places, v ∉ path → ∀ found, path ⊆ found →
      LeftBehind (stopAt next stop) found path → Retraces next stop path found [v] (visits v)) :
    ∀ found : List Nat, path ⊆ found → LeftBehind (stopAt next stop) found path →
      Retraces next stop path found places ((places.filter (· ∉ path)).flatMap visits) := by
  induction places with
  | nil => exact fun found _ hleft => ⟨Explored.done found, hleft⟩
  | cons v rest ih =>
      intro found hsub hleft
      have ih := ih fun u hu => hvisits u (List.mem_cons_of_mem v hu)
      by_cases hv : v ∈ path
      · rw [List.filter_cons_of_neg (by simpa using hv)]
        obtain ⟨hrest, hleft'⟩ := ih found hsub hleft
        exact ⟨Explored.skip (Or.inl (hsub hv)) hrest, hleft'⟩
      · rw [List.filter_cons_of_pos (by simpa using hv), List.flatMap_cons, Retraces,
          recordFirst_append]
        obtain ⟨hhead, hleft'⟩ := hvisits v List.mem_cons_self hv found hsub hleft
        obtain ⟨hrest, hleft''⟩ := ih _ (fun u hu => hhead.mem_of_mem (hsub hu)) hleft'
        exact ⟨hhead.append hrest, hleft''⟩

/-- A new place is retraced when what follows it is, with the place on the path. Going back over it
leaves it behind. -/
theorem Retraces.visit {path found visits : List Nat} {v : Nat} (hnew : v ∉ found)
    (h : Retraces next stop (path ++ [v]) (found ++ [v]) (stopAt next stop v) visits) :
    Retraces next stop path found [v] (v :: visits) := by
  obtain ⟨hchildren, hclosed⟩ := h
  rw [Retraces, recordFirst_cons_of_notMem hnew]
  refine ⟨Explored.visit hnew rfl (by simpa using hchildren), ?_⟩
  intro x hx hoff y hy
  by_cases hxv : x = v
  · subst hxv
    exact hchildren.mem_of_pending hy rfl
  · exact hclosed x hx (by simp [hoff, hxv]) y hy

/-- Below `n` a way without repetitions has no more than `n` places, so the ways with at least that
many places to go are all ways, and they record what an ordinary walk records. -/
theorem retraces_ends {n : Nat} (hnext : ∀ u, ∀ v ∈ next u, v < n) (depth : Nat) :
    ∀ (path : List Nat) (v : Nat) (found : List Nat), DistinctBelow n path → v ∉ path → v < n →
      n ≤ depth + path.length → path ⊆ found → LeftBehind (stopAt next stop) found path →
        Retraces next stop path found [v] (ends (simpleWays next stop depth path v)) := by
  induction depth with
  | zero =>
      intro path v found hpath hv hlt hdepth
      -- The path already has `n` places, so there is none to come.
      have hlength := (hpath.push hv hlt).length_le
      simp only [List.length_append, List.length_singleton] at hlength
      omega
  | succ depth ih =>
      intro path v found hpath hv hlt hdepth hsub hleft
      by_cases hfound : v ∈ found
      · -- Found off the path, so left behind: all ways on from here add nothing.
        rw [Retraces, recordFirst_eq_self (mem_of_mem_ends (depth + 1) hleft hfound hv)]
        exact ⟨Explored.skip (Or.inl hfound) (Explored.done found), hleft⟩
      · rw [ends_simpleWays_succ]
        apply Retraces.visit hfound
        apply Retraces.flatMap
        · intro u hu hnew found'
          apply ih (path ++ [v]) u found' (hpath.push hv hlt) hnew
          · exact hnext v u (mem_of_mem_stopAt hu)
          · simp only [List.length_append, List.length_singleton]
            omega
        · intro u hu
          rcases List.mem_append.mp hu with hu | hu
          · exact List.mem_append_left _ (hsub hu)
          · exact List.mem_append_right _ hu
        · exact hleft.push v

/-- A walk that leaves out places from which nothing but such places follows records what the whole
walk records, without them. -/
theorem Explored.filter {useful : Nat → Bool} {pending found record : List Nat}
    (hstop : ∀ v, useful v = true → v ≠ stop)
    (huseless : ∀ v, useful v = false → ∀ u ∈ stopAt next stop v, useful u = false)
    (h : Explored (stopAt next stop) (fun _ => true) pending found record) :
    Explored next useful pending (found.filter useful) (record.filter useful) := by
  induction h with
  | done => exact Explored.done _
  | @skip v rest found record hskip _ ih =>
      refine Explored.skip ?_ ih
      cases huse : useful v with
      | false => exact Or.inr rfl
      | true => exact Or.inl (List.mem_filter.mpr ⟨hskip.resolve_right (by simp), huse⟩)
  | @visit v rest found record hnew _ _ ih =>
      rw [List.filter_append] at ih
      cases huse : useful v with
      | false =>
          rw [List.filter_cons_of_neg (by simp [huse]), List.filter_nil, List.append_nil] at ih
          exact Explored.skip (Or.inr huse) (ih.of_skip_all (huseless v huse))
      | true =>
          rw [List.filter_cons_of_pos huse, List.filter_nil, stopAt, if_neg (hstop v huse)] at ih
          exact Explored.visit (fun hmem => hnew (List.mem_filter.mp hmem).1) huse ih

/-- The ways from `v` on that are listed are the simple ones that do not go on from `stop`. -/
theorem mem_simpleWays_iff (depth : Nat) {path way : List Nat} {v : Nat}
    (hnodup : (path ++ [v]).Nodup) :
    way ∈ simpleWays next stop depth path v ↔ ∃ after, way = path ++ v :: after ∧
      (v :: after).IsChain (fun a b => b ∈ next a) ∧ way.Nodup ∧ stop ∉ (v :: after).dropLast ∧
        after.length ≤ depth := by
  induction depth generalizing path v with
  | zero =>
      rw [simpleWays, List.mem_singleton]
      constructor
      · rintro rfl
        exact ⟨[], rfl, by simp, hnodup, by simp, Nat.le_refl _⟩
      · rintro ⟨after, rfl, -, -, -, hlength⟩
        rw [List.eq_nil_of_length_eq_zero (Nat.le_zero.mp hlength)]
  | succ depth ih =>
      have hextend : ∀ u, u ∉ path ++ [v] → ((path ++ [v]) ++ [u]).Nodup := fun u hu => by
        rw [List.nodup_append']
        simpa [hnodup] using hu
      rw [simpleWays, List.mem_cons]
      constructor
      · rintro (rfl | hway)
        · exact ⟨[], rfl, by simp, hnodup, by simp, Nat.zero_le _⟩
        · split at hway
          · simp at hway
          · next hstop =>
              obtain ⟨u, hu, hway⟩ := List.mem_flatMap.mp hway
              obtain ⟨hstep, hnew⟩ := List.mem_filter.mp hu
              have hnew : u ∉ path ++ [v] := by simpa using hnew
              obtain ⟨after, rfl, hchain, hway, hnot, hlength⟩ := (ih (hextend u hnew)).mp hway
              refine ⟨u :: after, by simp, List.isChain_cons_cons.mpr ⟨hstep, hchain⟩, hway, ?_, ?_⟩
              · rw [List.dropLast_cons_cons, List.mem_cons, not_or]
                exact ⟨Ne.symm hstop, hnot⟩
              · simpa using hlength
      · rintro ⟨after, rfl, hchain, hway, hnot, hlength⟩
        cases after with
        | nil => exact Or.inl rfl
        | cons u after =>
            rw [List.dropLast_cons_cons, List.mem_cons, not_or] at hnot
            rw [List.isChain_cons_cons] at hchain
            have hsplit : path ++ v :: u :: after = (path ++ [v]) ++ u :: after := by simp
            have hnew : u ∉ path ++ [v] := by
              intro hmem
              exact (List.nodup_append'.mp (hsplit ▸ hway)).2.2 hmem List.mem_cons_self
            rw [if_neg (Ne.symm hnot.1)]
            refine Or.inr (List.mem_flatMap.mpr ⟨u, ?_, ?_⟩)
            · exact List.mem_filter.mpr ⟨hchain.1, by simpa using hnew⟩
            · exact (ih (hextend u hnew)).mpr ⟨after, hsplit, hchain.2, hway, hnot.2, by
                simpa using hlength⟩

namespace Index

variable (ix : Index)

/-- All simple ways from the roots, in the order of a depth-first walk that does not go on from
`t`. -/
def waysTo (t : Nat) : List (List Nat) :=
  ix.roots.flatMap (simpleWays (fun v => heads (fun _ => true) (ix.out v)) t ix.size [])

/-- The places that the ways lead to, each where it is met first. -/
def firstMet (t : Nat) : List Nat := (ends (ix.waysTo t)).eraseDups

/-- A way along edges from a root that repeats no place and meets `t` at its end at most. -/
structure IsSimpleWay (t : Nat) (way : List Nat) : Prop where
  root : ∃ r ∈ ix.roots, way.head? = some r
  chain : way.IsChain (ix.Leads fun _ => true)
  nodup : way.Nodup
  not_past : t ∉ way.dropLast

variable {ix} {t : Nat}

theorem lt_of_mem_chain (h : ix.WellFormed) {accept : EdgeKind → Bool} {r : Nat} {way : List Nat}
    (hchain : (r :: way).IsChain (ix.Leads accept)) : ∀ v ∈ way, v < ix.size := by
  induction way generalizing r with
  | nil => simp
  | cons u rest ih =>
      rw [List.isChain_cons_cons] at hchain
      intro v hv
      rcases List.mem_cons.mp hv with rfl | hv
      · exact (hchain.1.lt h).2
      · exact ih hchain.2 v hv

theorem mem_waysTo_iff (h : ix.WellFormed) {way : List Nat} :
    way ∈ ix.waysTo t ↔ ix.IsSimpleWay t way := by
  rw [waysTo, List.mem_flatMap]
  constructor
  · rintro ⟨r, hr, hway⟩
    obtain ⟨after, rfl, hchain, hnodup, hnot, -⟩ := (mem_simpleWays_iff _ (by simp)).mp hway
    exact ⟨⟨r, hr, rfl⟩, hchain.imp fun _ _ hstep => mem_heads_out_iff.mp hstep, hnodup, hnot⟩
  · rintro ⟨⟨r, hr, hhead⟩, hchain, hnodup, hnot⟩
    obtain ⟨after, rfl⟩ := List.head?_eq_some_iff.mp hhead
    refine ⟨r, hr, (mem_simpleWays_iff _ (by simp)).mpr ⟨after, rfl, ?_, hnodup, hnot, ?_⟩⟩
    · exact hchain.imp fun _ _ hstep => mem_heads_out_iff.mpr hstep
    · have hlt : ∀ v ∈ r :: after, v < ix.size := by
        intro v hv
        rcases List.mem_cons.mp hv with rfl | hv
        · exact lt_of_mem_roots hr
        · exact lt_of_mem_chain h hchain v hv
      have hlength := DistinctBelow.length_le ⟨hnodup, hlt⟩
      rw [List.length_cons] at hlength
      omega

open Classical in
/-- The nodes discovered before a target are those that the walk along all simple ways meets, in the
order in which it meets them first, without the target and without those that do not lead to it. -/
theorem discovered_eq_filter_firstMet (h : ix.WellFormed) (ht : ix.isRoot t = false) :
    ix.discovered t =
      (ix.firstMet t).filter fun p => p ≠ t ∧ TransGen (ix.Leads fun _ => true) p t := by
  let next := fun v => heads (fun _ => true) (ix.out v)
  have hnext : ∀ u, ∀ v ∈ next u, v < ix.size := lt_of_mem_heads_out h
  let useful := (ix.reaching (fun _ => true) t).contains
  have huseful : ∀ v, useful v = true ↔ v ≠ t ∧ TransGen (ix.Leads fun _ => true) v t := fun v => by
    rw [List.contains_iff_mem, mem_reaching_iff h]
  have hpruned : Explored next useful ix.roots [] (ix.discovered t) := by
    rw [discovered, ht]
    exact explored_explore hnext ix.size ix.roots [] .nil (fun r hr => lt_of_mem_roots hr) (by simp)
  have hwhole : Explored (stopAt next t) (fun _ => true) ix.roots [] (ix.firstMet t) := by
    have hroots : ∀ r ∈ ix.roots, r ∉ [] → ∀ found, [] ⊆ found →
        LeftBehind (stopAt next t) found [] →
          Retraces next t [] found [r] (ends (simpleWays next t ix.size [] r)) := by
      intro r hr hnew found
      exact retraces_ends hnext ix.size [] r found .nil hnew (lt_of_mem_roots hr) (by simp)
    have hall := (Retraces.flatMap _ hroots [] (by simp) (by simp [LeftBehind])).1
    rw [recordFirst_eq_append_eraseDups] at hall
    simpa [firstMet, waysTo, ends_flatMap] using hall
  have huseless : ∀ v, useful v = false → ∀ u ∈ stopAt next t v, useful u = false := by
    intro v hv u hu
    rw [← Bool.not_eq_true, huseful] at hv ⊢
    rintro ⟨-, hchain⟩
    have hvt : v ≠ t := by
      rintro rfl
      simp [stopAt] at hu
    exact hv ⟨hvt, .head (mem_heads_out_iff.mp (mem_of_mem_stopAt hu)) hchain⟩
  rw [hpruned.unique (hwhole.filter (fun v hv => ((huseful v).mp hv).1) huseless)]
  refine List.filter_congr fun v _ => ?_
  rw [Bool.eq_iff_iff, huseful, decide_eq_true_iff]

end Index

open Classical in
/-- Discovery is the walk along all simple ways from the roots that do not go on from the target, with
each node recorded where it is met first, and with the nodes kept that lead to the target. -/
theorem Workflow.discover_map_fst_eq_filter_firstMet (w : Workflow) {t : Nat}
    (ht : w.index.isRoot t = false) :
    (w.index.discover t).map (·.1) =
        ((w.index.firstMet t).filter fun p =>
          p ≠ t ∧ TransGen (w.index.Leads fun _ => true) p t) ∧
      ∀ way, way ∈ w.index.waysTo t ↔ w.index.IsSimpleWay t way := by
  rw [Index.map_fst_discover]
  exact ⟨Index.discovered_eq_filter_firstMet w.index_wellFormed ht,
    fun _ => Index.mem_waysTo_iff w.index_wellFormed⟩

namespace SimpleWalksWitness

/-- Two roots lead into a circle of two nodes, of which either leads to the target. -/
def workflow : Workflow where
  nodes := [
    { id := ⟨"1"⟩, type := .start, next := [⟨"2"⟩] },
    { id := ⟨"2"⟩, type := .code, next := [⟨"3"⟩, ⟨"5"⟩] },
    { id := ⟨"3"⟩, type := .code, next := [⟨"2"⟩, ⟨"5"⟩] },
    { id := ⟨"4"⟩, type := .llm, next := [⟨"3"⟩, ⟨"6"⟩] },
    { id := ⟨"5"⟩, type := .code, next := [⟨"2"⟩] },
    { id := ⟨"6"⟩, type := .finish }]

open Classical in
theorem discover_map_fst_eq_filter_firstMet_circle :
    workflow.index.isRoot 4 = false ∧ workflow.index.firstMet 4 = [0, 1, 2, 4, 3, 5] ∧
      (workflow.index.discover 4).map (·.1) =
        ((workflow.index.firstMet 4).filter fun p =>
          p ≠ 4 ∧ TransGen (workflow.index.Leads fun _ => true) p 4) := by
  have ht : workflow.index.isRoot 4 = false := by decide
  exact ⟨ht, by decide, (workflow.discover_map_fst_eq_filter_firstMet ht).1⟩

end SimpleWalksWitness

end FlowScope
