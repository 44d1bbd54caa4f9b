/-!
Depth-first walks over positions. A walk keeps a list of places still to be tried; a place that is
new and allowed is recorded, and its successors are tried before anything else. The record is the
preorder of the walk, and it holds what can be reached through allowed places.
-/
namespace FlowScope

/-- Record at most `fuel` new places. `next` gives the successors of a place, `allowed` tells
which places may be recorded at all. -/
def explore (next : Nat → List Nat) (allowed : Nat → Bool) :
    Nat → List Nat → List Nat → List Nat
  | 0, _, found => found
  | fuel + 1, pending, found =>
      match pending.dropWhile fun v => found.contains v || !allowed v with
      | [] => found
      | v :: rest => explore next allowed fuel (next v ++ rest) (found ++ [v])

/-- A walk that reaches `v` from one of the places `from`, through allowed places only. -/
inductive Reaches (next : Nat → List Nat) (allowed : Nat → Bool) (origins : List Nat) : Nat → Prop
  | origin {v : Nat} : v ∈ origins → allowed v = true → Reaches next allowed origins v
  | step {u v : Nat} :
      Reaches next allowed origins u → v ∈ next u → allowed v = true →
        Reaches next allowed origins v

/-- What is found is found for good. -/
theorem mem_explore_of_mem {next : Nat → List Nat} {allowed : Nat → Bool} {v : Nat} :
    ∀ (fuel : Nat) (pending found : List Nat),
      v ∈ found → v ∈ explore next allowed fuel pending found := by
  intro fuel
  induction fuel with
  | zero => intro pending found h; simpa [explore] using h
  | succ n ih =>
      intro pending found h
      rw [explore]
      split
      · exact h
      · exact ih _ _ (List.mem_append_left _ h)

/-- A walk finds no place twice. -/
theorem nodup_explore {next : Nat → List Nat} {allowed : Nat → Bool} :
    ∀ (fuel : Nat) (pending found : List Nat),
      found.Nodup → (explore next allowed fuel pending found).Nodup := by
  intro fuel
  induction fuel with
  | zero => intro pending found h; simpa [explore] using h
  | succ n ih =>
      intro pending found h
      rw [explore]
      split
      · exact h
      · next v rest heq =>
          refine ih _ _ ?_
          have hnew := List.head?_dropWhile_not
            (fun v => found.contains v || !allowed v) pending
          rw [heq] at hnew
          simp at hnew
          rw [List.nodup_append]
          refine ⟨h, by simp, ?_⟩
          intro a ha b hb hab
          simp at hb
          subst hb
          exact hnew.1 (hab ▸ ha)

end FlowScope
