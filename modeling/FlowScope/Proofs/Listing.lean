import FlowScope.Workflow.Index
import Mathlib.Data.List.Nodup
/-!
The listing of the nodes of a workflow: no identifier is listed twice, so that an identifier and its
position determine each other, and the enclosing position of a node is another position in the
listing.
-/
namespace FlowScope.Placed

/-- No identifier is listed twice, and a container is listed before what it contains. -/
structure Sound (placed : List Placed) : Prop where
  ids_nodup : (placed.map (·.node.id)).Nodup
  container_lt : ∀ {i : Nat} {p : Placed}, placed[i]? = some p → ∀ c ∈ p.container, c < i

theorem Sound.nil : Sound [] := ⟨by simp, by simp⟩

theorem Sound.push {placed : List Placed} (h : Sound placed) {n : Node} {container : Option Nat}
    (hnew : placed.any (·.node.id == n.id) = false) (hcontainer : ∀ c ∈ container, c < placed.length) :
    Sound (placed ++ [⟨n, container⟩]) := by
  constructor
  · rw [List.map_append, List.nodup_append']
    refine ⟨h.ids_nodup, by simp, ?_⟩
    simpa [List.disjoint_left] using hnew
  · intro i p hp c hc
    rw [List.getElem?_append] at hp
    split at hp
    · exact h.container_lt hp c hc
    · next hge =>
        obtain ⟨hi, rfl⟩ : i - placed.length = 0 ∧ p = ⟨n, container⟩ := by
          simpa [List.getElem?_singleton, eq_comm] using hp
        have := hcontainer c hc
        omega

mutual

/-- To list a node with all that is nested in it keeps a listing sound, and nothing is taken out. -/
theorem sound_add (container : Option Nat) : ∀ (n : Node) (placed : List Placed), Sound placed →
    (∀ c ∈ container, c < placed.length) →
      Sound (add container n placed) ∧ placed.length ≤ (add container n placed).length
  | ⟨id, name, type, next, loop, config, inner, configInner, first, last⟩, placed, h, hcontainer => by
      rw [add]
      split
      · exact ⟨h, Nat.le_refl _⟩
      · next hnew =>
          have hpushed := h.push (n := ⟨id, name, type, next, loop, config, inner, configInner, first,
            last⟩) (by simpa using hnew) hcontainer
          have hinner := sound_addAll (some placed.length) inner _ hpushed (by simp)
          have hlength : placed.length < (addAll (some placed.length) inner _).length :=
            Nat.lt_of_lt_of_le (by simp) hinner.2
          have hconfig := sound_addAll (some placed.length) configInner _ hinner.1 (by
            simpa using hlength)
          exact ⟨hconfig.1, Nat.le_trans (Nat.le_of_lt hlength) hconfig.2⟩

theorem sound_addAll (container : Option Nat) : ∀ (ns : List Node) (placed : List Placed),
    Sound placed → (∀ c ∈ container, c < placed.length) →
      Sound (addAll container ns placed) ∧ placed.length ≤ (addAll container ns placed).length
  | [], placed, h, _ => by
      rw [addAll]
      exact ⟨h, Nat.le_refl _⟩
  | n :: rest, placed, h, hcontainer => by
      rw [addAll]
      have hhead := sound_add container n placed h hcontainer
      have htail := sound_addAll container rest _ hhead.1 fun c hc =>
        Nat.lt_of_lt_of_le (hcontainer c hc) hhead.2
      exact ⟨htail.1, Nat.le_trans hhead.2 htail.2⟩

end

/-- In a sound listing a position is that of one identifier only. -/
theorem Sound.position?_eq_some_iff {placed : List Placed} (h : Sound placed) {id : NodeId}
    {i : Nat} : position? placed id = some i ↔ ∃ p, placed[i]? = some p ∧ p.node.id = id := by
  rw [position?, List.findIdx?_eq_some_iff_getElem]
  constructor
  · rintro ⟨hi, hid, -⟩
    exact ⟨placed[i], List.getElem?_eq_getElem hi, by simpa using hid⟩
  · rintro ⟨p, hp, rfl⟩
    obtain ⟨hi, rfl⟩ := List.getElem?_eq_some_iff.mp hp
    refine ⟨hi, by simp, fun j hj heq => ?_⟩
    have hj' : j < (placed.map (·.node.id)).length := by
      rw [List.length_map]
      omega
    have hids : (placed.map (·.node.id))[j]? = (placed.map (·.node.id))[i]? := by
      have hlt : j < placed.length := Nat.lt_trans hj hi
      simpa [hi, hlt] using heq
    have hsame := (List.getElem?_inj hj' h.ids_nodup).mp hids
    omega

/-- Every enclosing position is in the listing, and no node encloses itself. -/
theorem Sound.parents_lt {placed : List Placed} (h : Sound placed) {i l : Nat}
    (hl : (parents placed)[i]?.join = some l) : l < placed.length ∧ l ≠ i := by
  rw [Option.join_eq_some_iff, parents, List.getElem?_mapIdx, Option.map_eq_some_iff] at hl
  obtain ⟨p, hp, hl⟩ := hl
  have hi := (List.getElem?_eq_some_iff.mp hp).1
  rcases Option.or_eq_some_iff.mp hl with hdeclared | ⟨-, hcontainer⟩
  · rw [Option.filter_eq_some_iff] at hdeclared
    have hother : l ≠ i ∧ placed[l]?.any (·.node.isLoop) = true := by
      simpa using hdeclared.2
    refine ⟨?_, hother.1⟩
    by_contra hge
    simp [List.getElem?_eq_none (Nat.le_of_not_lt hge)] at hother
  · have := h.container_lt hp l hcontainer
    omega

end FlowScope.Placed
