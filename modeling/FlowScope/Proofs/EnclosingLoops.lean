import FlowScope.Proofs.Downstream
import FlowScope.Proofs.Members
import FlowScope.Proofs.WaysUp
/-!
What encloses a node. The chain of a node has exactly what is met on the way from each node to the one
that encloses it. Such a node is a loop, but for one case: a node that says of no loop that it is in it
is enclosed by the node that it is nested in, of whatever type that is.
-/
namespace FlowScope

open Relation

namespace Placed

/-- Every listed node is nested in the node at its container. -/
def Nesting (placed : List Placed) : Prop :=
  ∀ (i : Nat) (p : Placed), placed[i]? = some p → ∀ c ∈ p.container,
    ∃ q, placed[c]? = some q ∧ p.node ∈ q.node.nested

theorem Nesting.nil : Nesting [] := fun i p hp => by simp at hp

theorem Nesting.push {placed : List Placed} (h : Nesting placed) {n : Node} {container : Option Nat}
    (hcontainer : ∀ c ∈ container, ∃ q, placed[c]? = some q ∧ n ∈ q.node.nested) :
    Nesting (placed ++ [⟨n, container⟩]) := by
  have hkept : ∀ (c : Nat) (q : Placed), placed[c]? = some q →
      (placed ++ [⟨n, container⟩])[c]? = some q := fun c q hq =>
    (List.getElem?_append_left (List.getElem?_eq_some_iff.mp hq).1).trans hq
  intro i p hp c hc
  rw [List.getElem?_append] at hp
  split at hp
  · obtain ⟨q, hq, hmem⟩ := h i p hp c hc
    exact ⟨q, hkept c q hq, hmem⟩
  · obtain ⟨-, rfl⟩ : i - placed.length = 0 ∧ p = ⟨n, container⟩ := by
      simpa [List.getElem?_singleton, eq_comm] using hp
    obtain ⟨q, hq, hmem⟩ := hcontainer c hc
    exact ⟨q, hkept c q hq, hmem⟩

/-- Nodes that are nested in a listed node can be listed one after the other when each of them can. -/
theorem Nesting.foldl_add {placed : List Placed} (h : Nesting placed) (container : Option Nat)
    {ns : List Node}
    (hadd : ∀ n ∈ ns, ∀ (container : Option Nat) (placed : List Placed), Nesting placed →
      (∀ c ∈ container, ∃ q, placed[c]? = some q ∧ n ∈ q.node.nested) →
        Nesting (add container n placed) ∧ placed <+: add container n placed)
    (hcontainer : ∀ c ∈ container, ∃ q, placed[c]? = some q ∧ ∀ n ∈ ns, n ∈ q.node.nested) :
    Nesting (ns.foldl (fun placed n => add container n placed) placed) ∧
      placed <+: ns.foldl (fun placed n => add container n placed) placed := by
  induction ns generalizing placed with
  | nil => exact ⟨h, List.prefix_rfl⟩
  | cons n rest ih =>
      obtain ⟨hhead, hbegins⟩ := hadd n List.mem_cons_self container placed h fun c hc => by
        obtain ⟨q, hq, hmem⟩ := hcontainer c hc
        exact ⟨q, hq, hmem n List.mem_cons_self⟩
      obtain ⟨htail, hkept⟩ := ih hhead (fun m hm => hadd m (List.mem_cons_of_mem n hm)) fun c hc => by
        obtain ⟨q, hq, hmem⟩ := hcontainer c hc
        obtain ⟨more, hmore⟩ := hbegins
        refine ⟨q, ?_, fun m hm => hmem m (List.mem_cons_of_mem n hm)⟩
        rw [← hmore, List.getElem?_append_left (List.getElem?_eq_some_iff.mp hq).1, hq]
      exact ⟨htail, hbegins.trans hkept⟩

/-- To list a node, with all that is nested in it, keeps every node in its container. -/
theorem nesting_add (n : Node) : ∀ (container : Option Nat) (placed : List Placed), Nesting placed →
    (∀ c ∈ container, ∃ q, placed[c]? = some q ∧ n ∈ q.node.nested) →
      Nesting (add container n placed) ∧ placed <+: add container n placed := by
  induction n using Node.nestedInduction with | step n ih
  intro container placed h hcontainer
  by_cases hnew : placed.any (·.node.id == n.id) = false
  · rw [add_eq_foldl container n hnew]
    obtain ⟨hnested, hkept⟩ := (h.push hcontainer).foldl_add (some placed.length) ih
      fun c hc => ⟨⟨n, container⟩, by simp [← Option.mem_some_iff.mp hc], fun m hm => hm⟩
    exact ⟨hnested, (List.prefix_append _ _).trans hkept⟩
  · rw [add_eq_self container n (by simpa using hnew)]
    exact ⟨h, List.prefix_rfl⟩

end Placed

theorem Workflow.nesting_index (w : Workflow) : Placed.Nesting w.index.placed := by
  have hlisted := Placed.Nesting.nil.foldl_add none
    (fun n (_ : n ∈ w.nodes) => Placed.nesting_add n) (by simp)
  rw [← Placed.addAll_eq_foldl] at hlisted
  exact hlisted.1

namespace Index

/-- The loop that a node says it is in, if that is another node and a loop. -/
def declaredLoop? (ix : Index) (i : Nat) : Option Nat :=
  ((ix.nodeAt i).loop.bind ix.position?).filter fun l => l != i && (ix.nodeAt l).isLoop

/-- The position of the node that a node is nested in. -/
def container? (ix : Index) (i : Nat) : Option Nat := ix.placed[i]?.bind (·.container)

/-- The node at `i` is nested in a node that is no loop, and names no loop that it is in. -/
structure Stray (ix : Index) (i c : Nat) : Prop where
  container : ix.container? i = some c
  notLoop : (ix.nodeAt c).isLoop = false
  undeclared : ix.declaredLoop? i = none

variable {ix : Index} {i l : Nat}

theorem parent_eq_or (h : ix.WellFormed) (i : Nat) :
    ix.parent i = (ix.declaredLoop? i).or (ix.container? i) := by
  rw [parent, h.parents_eq, Placed.parents, List.getElem?_mapIdx, declaredLoop?, container?, nodeAt]
  cases ix.placed[i]? with
  | none => rfl
  | some p =>
      simp only [any_isLoop_eq, Option.map_some, Option.join_some, Option.bind_some, Option.getD_some]
      rfl

/-- What directly encloses a node is a loop, unless the node is a stray one that is nested in it. -/
theorem isLoop_iff_not_stray (h : ix.WellFormed) (hl : ix.EnclosedBy i l) :
    (ix.nodeAt l).isLoop = true ↔ ¬ ix.Stray i l := by
  rw [EnclosedBy, parent_eq_or h] at hl
  constructor
  · intro hloop hstray
    rw [hstray.notLoop] at hloop
    exact Bool.false_ne_true hloop
  · intro hnot
    rcases Option.or_eq_some_iff.mp hl with hdeclared | ⟨hundeclared, hcontainer⟩
    · rw [declaredLoop?, Option.filter_eq_some_iff] at hdeclared
      exact (Bool.and_eq_true_iff.mp hdeclared.2).2
    · by_contra hno
      exact hnot ⟨hcontainer, Bool.eq_false_of_not_eq_true hno, hundeclared⟩

theorem Stray.enclosedBy (h : ix.WellFormed) (hstray : ix.Stray i l) : ix.EnclosedBy i l := by
  rw [EnclosedBy, parent_eq_or h, hstray.undeclared, hstray.container]
  rfl

/-- In the chain of a node is everything else that encloses it, directly or not. -/
theorem mem_loopChain_iff (h : ix.WellFormed) :
    l ∈ ix.loopChain i ↔ l ≠ i ∧ TransGen ix.EnclosedBy i l := (wholeWayUp_loopChain h i).mem_iff

/-- A member of a chain directly encloses the node itself or another member. -/
theorem exists_enclosedBy_of_mem_loopChain (h : ix.WellFormed) (hl : l ∈ ix.loopChain i) :
    ∃ j ∈ i :: ix.loopChain i, ix.EnclosedBy j l := by
  obtain ⟨-, hway⟩ := (mem_loopChain_iff h).mp hl
  obtain ⟨j, hupto, hlast⟩ := TransGen.tail'_iff.mp hway
  refine ⟨j, ?_, hlast⟩
  by_cases hji : j = i
  · exact hji ▸ List.mem_cons_self
  · rcases reflTransGen_iff_eq_or_transGen.mp hupto with heq | hway
    · exact absurd heq hji
    · exact List.mem_cons_of_mem i ((mem_loopChain_iff h).mpr ⟨hji, hway⟩)

/-- A member of a chain is a loop, unless a stray node below it in the chain is nested in it. -/
theorem isLoop_iff_forall_not_stray (h : ix.WellFormed) (hl : l ∈ ix.loopChain i) :
    (ix.nodeAt l).isLoop = true ↔ ∀ j ∈ i :: ix.loopChain i, ¬ ix.Stray j l := by
  constructor
  · intro hloop j _ hstray
    exact (isLoop_iff_not_stray h (hstray.enclosedBy h)).mp hloop hstray
  · intro hnone
    obtain ⟨j, hj, henclosed⟩ := exists_enclosedBy_of_mem_loopChain h hl
    exact (isLoop_iff_not_stray h henclosed).mpr (hnone j hj)

end Index

namespace Workflow

variable (w : Workflow)

theorem nodeAt_mem_nested {i c : Nat} (hc : w.index.container? i = some c) :
    w.index.nodeAt i ∈ (w.index.nodeAt c).nested := by
  obtain ⟨p, hp, hc⟩ := Option.bind_eq_some_iff.mp hc
  obtain ⟨q, hq, hmem⟩ := w.nesting_index i p hp c hc
  simpa [Index.nodeAt, hp, hq] using hmem

/-- Around a node is what is met on the way from each node to the one that encloses it, and this is
how far it consists of loops. What directly encloses a node is a loop, unless the node is a stray one:
nested in a node that is no loop, and saying of no loop that it is in it. A member of a chain is a
loop, unless such a stray node is nested in it below in the chain. So all of these are loops in a
workflow exactly when it has no stray nodes, as when only its loops have nested nodes. -/
theorem isLoop_of_mem_loopChain_iff :
    (∀ i l, l ∈ w.index.loopChain i ↔ l ≠ i ∧ TransGen w.index.EnclosedBy i l) ∧
    (∀ i l, w.index.EnclosedBy i l → ((w.index.nodeAt l).isLoop = true ↔ ¬ w.index.Stray i l)) ∧
    (∀ i, ∀ l ∈ w.index.loopChain i, ((w.index.nodeAt l).isLoop = true ↔
      ∀ j ∈ i :: w.index.loopChain i, ¬ w.index.Stray j l)) ∧
    ((∀ i, ∀ l ∈ w.index.loopChain i, (w.index.nodeAt l).isLoop = true) ↔
      ∀ j c, ¬ w.index.Stray j c) ∧
    ∀ j c, w.index.Stray j c →
      w.index.nodeAt j ∈ (w.index.nodeAt c).nested ∧ (w.index.nodeAt c).isLoop = false := by
  have h := w.index_wellFormed
  refine ⟨fun i l => Index.mem_loopChain_iff h, fun i l => Index.isLoop_iff_not_stray h,
    fun i l => Index.isLoop_iff_forall_not_stray h,
    ⟨fun hall j c hstray => ?_, fun hnone i l hl => ?_⟩, fun j c hstray =>
      ⟨w.nodeAt_mem_nested hstray.container, hstray.notLoop⟩⟩
  · have hchain := Index.parent_mem_loopChain h (hstray.enclosedBy h)
    exact (Index.isLoop_iff_not_stray h (hstray.enclosedBy h)).mp (hall j c hchain) hstray
  · exact (Index.isLoop_iff_forall_not_stray h hl).mpr fun j _ => hnone j l

end Workflow

namespace EnclosingLoopsWitness

/-- A code node in which another one is nested. -/
def document : Json.Document := .ofJson (.object [("nodes", .array [.object [
  ("id", .text "1"),
  ("type", .text "Code"),
  ("innerNodes", .array [.object [("id", .text "2"), ("type", .text "Code")]])]])])

def workflow : Workflow where
  nodes := [{ id := ⟨"1"⟩, type := .code, inner := [{ id := ⟨"2"⟩, type := .code }] }]

/-- What is around a node of a workflow that can be loaded is not always a loop. -/
theorem not_isLoop_of_enclosing :
    ¬ ∀ (d : Json.Document) (w : Workflow), Workflow.ofDocument d = .ok w → ∀ i < w.index.size,
      (∀ l ∈ w.index.loopChain i, (w.index.nodeAt l).isLoop = true) ∧
        ∀ l ∈ w.index.parent i, (w.index.nodeAt l).isLoop = true := by
  intro h
  have hread : Workflow.ofDocument document = .ok workflow := by rfl
  have hloop := (h document workflow hread 1 (by decide)).2 0 (by decide)
  exact absurd hloop (by decide)

end EnclosingLoopsWitness

end FlowScope
