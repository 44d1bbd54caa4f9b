import FlowScope.Walk
import Mathlib.Data.List.Perm.Subperm
import Mathlib.Data.List.Nodup
import Mathlib.Data.List.TakeWhile
/-!
What a depth-first walk records. A walk counts the places that it may still record; here it is
related to one that does not count, and the record turns out to hold exactly what can be reached,
as long as the count is no less than the number of places there are.
-/
namespace FlowScope

variable {next : Nat → List Nat} {allowed : Nat → Bool}

/-- A walk without a count: `Explored next allowed pending found record` says that to try the places
`pending` after those of `found` were recorded leaves `record`. -/
inductive Explored (next : Nat → List Nat) (allowed : Nat → Bool) :
    List Nat → List Nat → List Nat → Prop
  | done (found : List Nat) : Explored next allowed [] found found
  | skip {v : Nat} {rest found record : List Nat} :
      v ∈ found ∨ allowed v = false → Explored next allowed rest found record →
        Explored next allowed (v :: rest) found record
  | visit {v : Nat} {rest found record : List Nat} :
      v ∉ found → allowed v = true →
        Explored next allowed (next v ++ rest) (found ++ [v]) record →
          Explored next allowed (v :: rest) found record

namespace Explored

theorem skip_all {before rest found record : List Nat}
    (hskip : ∀ v ∈ before, v ∈ found ∨ allowed v = false)
    (h : Explored next allowed rest found record) :
    Explored next allowed (before ++ rest) found record := by
  induction before with
  | nil => exact h
  | cons v tail ih =>
      refine skip (hskip v List.mem_cons_self) (ih ?_)
      exact fun u hu => hskip u (List.mem_cons_of_mem v hu)

/-- Places that may not be recorded can be left out of those to be tried. -/
theorem of_skip_all {before rest found record : List Nat}
    (hskip : ∀ v ∈ before, allowed v = false)
    (h : Explored next allowed (before ++ rest) found record) :
    Explored next allowed rest found record := by
  induction before with
  | nil => exact h
  | cons v tail ih =>
      have hv := hskip v List.mem_cons_self
      cases h with
      | skip _ h => exact ih (fun u hu => hskip u (List.mem_cons_of_mem v hu)) h
      | visit _ hallowed _ => simp [hv] at hallowed

/-- Two walks one after the other are one walk. -/
theorem append {first second found middle record : List Nat}
    (hfirst : Explored next allowed first found middle)
    (hsecond : Explored next allowed second middle record) :
    Explored next allowed (first ++ second) found record := by
  induction hfirst with
  | done => exact hsecond
  | skip hskip _ ih => exact skip hskip (ih hsecond)
  | visit hnew hallowed _ ih =>
      refine visit hnew hallowed ?_
      simpa [List.append_assoc] using ih hsecond

theorem unique {pending found first second : List Nat}
    (hfirst : Explored next allowed pending found first)
    (hsecond : Explored next allowed pending found second) : first = second := by
  induction hfirst with
  | done =>
      cases hsecond with
      | done => rfl
  | skip hskip _ ih =>
      cases hsecond with
      | skip _ h => exact ih h
      | visit hnew hallowed _ => rcases hskip with h | h <;> simp_all
  | visit hnew hallowed _ ih =>
      cases hsecond with
      | skip hskip _ => rcases hskip with h | h <;> simp_all
      | visit _ _ h => exact ih h

theorem mem_of_mem {pending found record : List Nat}
    (h : Explored next allowed pending found record) {v : Nat} (hv : v ∈ found) :
    v ∈ record := by
  induction h with
  | done => exact hv
  | skip _ _ ih => exact ih hv
  | visit _ _ _ ih => exact ih (List.mem_append_left _ hv)

/-- Everything that was to be tried and may be recorded is recorded. -/
theorem mem_of_pending {pending found record : List Nat}
    (h : Explored next allowed pending found record) {v : Nat} (hv : v ∈ pending)
    (hallowed : allowed v = true) : v ∈ record := by
  induction h with
  | done => simp at hv
  | skip hskip hrest ih =>
      rcases List.mem_cons.mp hv with rfl | hv
      · exact hrest.mem_of_mem (hskip.resolve_right (by simp [hallowed]))
      · exact ih hv
  | visit _ _ hrest ih =>
      rcases List.mem_cons.mp hv with rfl | hv
      · exact hrest.mem_of_mem (by simp)
      · exact ih (List.mem_append_right _ hv)

/-- No way leads out of the record, if none led out of what was found and what was to be tried. -/
theorem closed {pending found record : List Nat}
    (h : Explored next allowed pending found record)
    (hfound : ∀ u ∈ found, ∀ v ∈ next u, allowed v = true → v ∈ found ∨ v ∈ pending) :
    ∀ u ∈ record, ∀ v ∈ next u, allowed v = true → v ∈ record := by
  induction h with
  | done =>
      intro u hu v hv hallowed
      simpa using hfound u hu v hv hallowed
  | @skip w rest found record hskip _ ih =>
      apply ih
      intro u hu v hv hallowed
      rcases hfound u hu v hv hallowed with hmem | hmem
      · exact Or.inl hmem
      · rcases List.mem_cons.mp hmem with rfl | hmem
        · exact Or.inl (hskip.resolve_right (by simp [hallowed]))
        · exact Or.inr hmem
  | @visit w rest found record _ _ _ ih =>
      apply ih
      intro u hu v hv hallowed
      rcases List.mem_append.mp hu with hu | hu
      · rcases hfound u hu v hv hallowed with hmem | hmem
        · exact Or.inl (List.mem_append_left _ hmem)
        · rcases List.mem_cons.mp hmem with rfl | hmem
          · exact Or.inl (by simp)
          · exact Or.inr (List.mem_append_right _ hmem)
      · obtain rfl : u = w := by simpa using hu
        exact Or.inr (List.mem_append_left _ hv)

end Explored

theorem Reaches.of_origins {first second : List Nat} {v : Nat}
    (h : Reaches next allowed first v)
    (horigins : ∀ u ∈ first, allowed u = true → Reaches next allowed second u) :
    Reaches next allowed second v := by
  induction h with
  | origin hmem hallowed => exact horigins _ hmem hallowed
  | step _ hnext hallowed ih => exact .step ih hnext hallowed

theorem Explored.reaches {pending found record : List Nat}
    (h : Explored next allowed pending found record) :
    ∀ v ∈ record, v ∈ found ∨ Reaches next allowed pending v := by
  induction h with
  | done => exact fun v hv => Or.inl hv
  | skip _ _ ih =>
      intro v hv
      refine (ih v hv).imp_right fun hreach => hreach.of_origins fun u hu hallowed => ?_
      exact .origin (List.mem_cons_of_mem _ hu) hallowed
  | @visit w rest found record _ hw _ ih =>
      have hhead : Reaches next allowed (w :: rest) w := .origin List.mem_cons_self hw
      intro v hv
      rcases ih v hv with hmem | hreach
      · rcases List.mem_append.mp hmem with hmem | hmem
        · exact Or.inl hmem
        · obtain rfl : v = w := by simpa using hmem
          exact Or.inr hhead
      · refine Or.inr (hreach.of_origins fun u hu hallowed => ?_)
        rcases List.mem_append.mp hu with hu | hu
        · exact .step hhead hu hallowed
        · exact .origin (List.mem_cons_of_mem _ hu) hallowed

/-- From nothing found, the record holds exactly what can be reached. -/
theorem Explored.mem_iff_reaches {origins record : List Nat}
    (h : Explored next allowed origins [] record) (v : Nat) :
    v ∈ record ↔ Reaches next allowed origins v := by
  constructor
  · intro hv
    simpa using h.reaches v hv
  · intro hreach
    induction hreach with
    | origin hmem hallowed => exact h.mem_of_pending hmem hallowed
    | step _ hnext hallowed ih => exact h.closed (by simp) _ ih _ hnext hallowed

/-- Places below `n`, none of them twice. -/
structure DistinctBelow (n : Nat) (places : List Nat) : Prop where
  nodup : places.Nodup
  lt : ∀ v ∈ places, v < n

namespace DistinctBelow

variable {n : Nat} {places : List Nat}

theorem nil : DistinctBelow n [] := ⟨List.nodup_nil, by simp⟩

theorem push (h : DistinctBelow n places) {v : Nat} (hnew : v ∉ places) (hv : v < n) :
    DistinctBelow n (places ++ [v]) := by
  constructor
  · rw [List.nodup_append']
    simp [h.nodup, hnew]
  · intro u hu
    rcases List.mem_append.mp hu with hu | hu
    · exact h.lt u hu
    · obtain rfl : u = v := by simpa using hu
      exact hv

theorem subperm_range (h : DistinctBelow n places) : places.Subperm (List.range n) :=
  List.subperm_of_subset h.nodup fun u hu => List.mem_range.mpr (h.lt u hu)

theorem length_le (h : DistinctBelow n places) : places.length ≤ n := by
  have hlength := h.subperm_range.length_le
  rwa [List.length_range] at hlength

/-- As many of them as there are, they are all. -/
theorem mem_of_length (h : DistinctBelow n places) (hlength : n ≤ places.length) {v : Nat}
    (hv : v < n) : v ∈ places := by
  have hperm := h.subperm_range.perm_of_length_le (by simpa using hlength)
  exact hperm.mem_iff.mpr (List.mem_range.mpr hv)

end DistinctBelow

/-- A walk over the places below `n` comes to its end when it may record as many places as have not
been found before. -/
theorem explored_explore {n : Nat} (hnext : ∀ u, ∀ v ∈ next u, v < n) :
    ∀ (fuel : Nat) (pending found : List Nat), DistinctBelow n found → (∀ v ∈ pending, v < n) →
      n ≤ fuel + found.length →
        Explored next allowed pending found (explore next allowed fuel pending found) := by
  intro fuel
  induction fuel with
  | zero =>
      intro pending found hfound hpending hlength
      have hskip : ∀ v ∈ pending, v ∈ found ∨ allowed v = false := fun v hv =>
        Or.inl (hfound.mem_of_length (by simpa using hlength) (hpending v hv))
      simpa [explore] using Explored.skip_all hskip (Explored.done found)
  | succ fuel ih =>
      intro pending found hfound hpending hlength
      let known := fun v => found.contains v || !allowed v
      have hskip : ∀ v ∈ pending.takeWhile known, v ∈ found ∨ allowed v = false := by
        intro v hv
        simpa [known] using List.mem_takeWhile_imp hv
      rw [← List.takeWhile_append_dropWhile (p := known) (l := pending)]
      refine Explored.skip_all hskip ?_
      rw [List.takeWhile_append_dropWhile, explore]
      cases hrest : pending.dropWhile known with
      | nil => simpa [known, hrest] using Explored.done found
      | cons v rest =>
          have hnew : v ∉ found ∧ allowed v = true := by
            have hhead := List.head?_dropWhile_not known pending
            rw [hrest] at hhead
            simpa [known] using hhead
          have hlt : ∀ u ∈ v :: rest, u < n := fun u hu =>
            hpending u ((List.dropWhile_sublist known).subset (hrest ▸ hu))
          refine Explored.visit hnew.1 hnew.2 (ih _ _ ?_ ?_ ?_)
          · exact hfound.push hnew.1 (hlt v List.mem_cons_self)
          · intro u hu
            rcases List.mem_append.mp hu with hu | hu
            · exact hnext v u hu
            · exact hlt u (List.mem_cons_of_mem v hu)
          · simp only [List.length_append, List.length_singleton]
            omega

/-- A walk that may record `n` of the places below `n` finds exactly what can be reached. -/
theorem mem_explore_iff {n : Nat} (hnext : ∀ u, ∀ v ∈ next u, v < n) {origins : List Nat}
    (horigins : ∀ v ∈ origins, v < n) (v : Nat) :
    v ∈ explore next allowed n origins [] ↔ Reaches next allowed origins v :=
  (explored_explore hnext n origins [] .nil horigins (by simp)).mem_iff_reaches v

end FlowScope
