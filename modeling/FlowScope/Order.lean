import FlowScope.Workflow.Index
/-!
Orders in which every node comes after what leads to it. One node after the other is released: the
first of the waiting ones that no other waiting one leads to, or the first of all where every one
of them waits for another.
-/
namespace FlowScope

def nextReleased (before : Nat → Nat → Bool) (waiting : List Nat) : Option Nat :=
  (waiting.find? fun v => waiting.all fun u => !before u v).or waiting.head?

/-- Release at most `fuel` nodes. -/
def releaseOrder (before : Nat → Nat → Bool) : Nat → List Nat → List Nat
  | 0, _ => []
  | fuel + 1, waiting =>
      match nextReleased before waiting with
      | none => []
      | some v => v :: releaseOrder before fuel (waiting.erase v)

theorem nextReleased_mem {before : Nat → Nat → Bool} {waiting : List Nat} {v : Nat}
    (h : nextReleased before waiting = some v) : v ∈ waiting := by
  rw [nextReleased, Option.or_eq_some_iff] at h
  rcases h with h | ⟨_, h⟩
  · exact List.mem_of_find?_eq_some h
  · exact List.mem_of_head? h

/-- The nodes in an order that follows the edges between them, as far as they form no cycle. -/
def Index.topologicalOrder (ix : Index) (nodes : List Nat) : List Nat :=
  releaseOrder ix.hasEdge nodes.length nodes

end FlowScope
