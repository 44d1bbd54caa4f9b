import FlowScope.Proofs.ScopeKeys
import FlowScope.Proofs.ScopeMembers
import Mathlib.Data.List.Forall2
/-!
What a loop exposes in the scope of a node. The nodes outside its body see its outputs. The nodes in its
body see an item for each of its inputs that is an array, the number of the round, and its variables.
Inputs and variables take their types from what they are bound to among the entries before the loop,
so the items of one loop can be what a loop inside it goes through.
-/
namespace FlowScope

/-- The arguments that entries expose, by the texts of their tokens. -/
def ArgumentMap.ofEntries (entries : List ScopeNode) : ArgumentMap :=
  entries.foldl (fun m e => m.insertNode e.id e.arguments) {}

namespace Argument

/-- The argument gets its value by reference, and its token leads to `source`. -/
def IsBoundTo (m : ArgumentMap) (a source : Argument) : Prop :=
  a.bindMode = some .reference ∧ ∃ token, a.bindValue = some token ∧ m.resolve? token = some source

/-- What gives an input its type and its fields. -/
inductive Effective (m : ArgumentMap) (input : Argument) : Argument → Prop
  | bound {source : Argument} : input.IsBoundTo m source → Effective m input source
  | own : (∀ source, ¬input.IsBoundTo m source) → Effective m input input

/-- One item for each input that is an array, in order. -/
inductive ItemsOf (m : ArgumentMap) : List Argument → List Argument → Prop
  | nil : ItemsOf m [] []
  | array {input source : Argument} {element : DataType} {rest items : List Argument} :
      Effective m input source → source.type = some (.array element) → ItemsOf m rest items →
        ItemsOf m (input :: rest)
          ({ input with
            name := input.name ++ "_item"
            type := some element
            fields := if element = .object then source.fields else []
            bindMode := none
            bindValue := none } :: items)
  | other {input source : Argument} {rest items : List Argument} :
      Effective m input source → (∀ element, source.type ≠ some (.array element)) →
        ItemsOf m rest items → ItemsOf m (input :: rest) items

/-- A variable as the body of its loop sees it. One that is bound takes over the fields of its source, and
the type when it has none itself. -/
inductive VariableOf (m : ArgumentMap) (v : Argument) : Argument → Prop
  | bound {source : Argument} : v.IsBoundTo m source →
      VariableOf m v
        { v with
          type := if v.type = none then source.type else v.type
          fields := source.fields
          bindMode := none
          bindValue := none }
  | free : (∀ source, ¬v.IsBoundTo m source) →
      VariableOf m v { v with bindMode := none, bindValue := none }

variable {m : ArgumentMap} {a source : Argument}

/-- No token is empty, so it does not matter that an empty one is no reference. -/
theorem reference_bind_eq_some_iff :
    a.reference.bind m.resolve? = some source ↔ a.IsBoundTo m source := by
  have hempty : m.resolve? "" = none := rfl
  rw [IsBoundTo, reference]
  cases a.bindMode with
  | none => simp [boundToken]
  | some mode =>
      cases a.bindValue with
      | none => simp [boundToken]
      | some token =>
          cases mode with
          | input => simp [boundToken]
          | reference =>
              by_cases htoken : token = ""
              · simp [boundToken, htoken, hempty]
              · simp [boundToken, htoken]

theorem not_isBoundTo_of_bind_eq_none (h : a.reference.bind m.resolve? = none) :
    ∀ source, ¬a.IsBoundTo m source := by
  intro source hbound
  rw [reference_bind_eq_some_iff.mpr hbound] at h
  exact Option.some_ne_none source h

theorem effective_effective (m : ArgumentMap) (input : Argument) :
    Effective m input (Node.effective input m) := by
  rw [Node.effective]
  cases hbound : input.reference.bind m.resolve? with
  | none => exact .own (not_isBoundTo_of_bind_eq_none hbound)
  | some source => exact .bound (reference_bind_eq_some_iff.mp hbound)

theorem element?_bind_eq_some_iff {type : Option DataType} {element : DataType} :
    type.bind DataType.element? = some element ↔ type = some (.array element) := by
  cases type with
  | none => simp
  | some type => cases type <;> simp [DataType.element?]

theorem itemsOf_filterMap (m : ArgumentMap) (inputs : List Argument) :
    ItemsOf m inputs (inputs.filterMap (Node.loopItem? m)) := by
  induction inputs with
  | nil => exact .nil
  | cons input rest ih =>
      have heffective := effective_effective m input
      rw [List.filterMap_cons, Node.loopItem?]
      cases helement : (Node.effective input m).type.bind DataType.element? with
      | none =>
          refine .other heffective (fun element harray => ?_) ih
          rw [element?_bind_eq_some_iff.mpr harray] at helement
          exact Option.some_ne_none element helement
      | some element =>
          exact .array heffective (element?_bind_eq_some_iff.mp helement) ih

theorem variableOf_loopVariable (m : ArgumentMap) (v : Argument) :
    VariableOf m v (Node.loopVariable m v) := by
  rw [Node.loopVariable]
  cases hbound : v.reference.bind m.resolve? with
  | none => exact .free (not_isBoundTo_of_bind_eq_none hbound)
  | some source =>
      have htype : v.type.or source.type = if v.type = none then source.type else v.type := by
        cases v.type <;> simp
      simp only [htype]
      exact .bound (reference_bind_eq_some_iff.mp hbound)

end Argument

namespace Node

/-- What the nodes in the body of a loop see of it, given the arguments before it. -/
def SeenFromBody (n : Node) (m : ArgumentMap) (args : List Argument) : Prop :=
  ∃ items vars, args = items ++ Argument.provided "INDEX" .integer "Array index" :: vars ∧
    Argument.ItemsOf m n.config.inputs items ∧
    List.Forall₂ (Argument.VariableOf m) n.config.vars vars

theorem seenFromBody_loopArguments (n : Node) (m : ArgumentMap) :
    n.SeenFromBody m (n.loopArguments m) := by
  refine ⟨_, n.loopVariables m, rfl, Argument.itemsOf_filterMap m _, ?_⟩
  rw [loopVariables, List.forall₂_map_right_iff, List.forall₂_same]
  intro v _
  exact Argument.variableOf_loopVariable m v

end Node

theorem Index.arguments_previousEntry_of_loop {ix : Index} {l : Nat}
    (h : (ix.nodeAt l).type = .loop) (system : List Argument) (chain : List Nat)
    (found : List (Nat × Bool)) (m : ArgumentMap) :
    (ix.previousEntry system chain found l m).arguments =
      if l ∈ chain then (ix.nodeAt l).loopArguments m else (ix.nodeAt l).config.outputs := by
  simp [previousEntry, entry, Node.exposed, h]

/-- Every entry was made with the arguments of the entries before it. -/
theorem exists_of_collectScope_eq_append {entryAt : Nat → ArgumentMap → ScopeNode} {nodes : List Nat}
    {m : ArgumentMap} {before after : List ScopeNode} {e : ScopeNode}
    (h : (collectScope entryAt nodes m).1 = before ++ e :: after) :
    ∃ p ∈ nodes, e = entryAt p (before.foldl (fun m e => m.insertNode e.id e.arguments) m) := by
  induction before generalizing nodes m with
  | nil =>
      cases nodes with
      | nil => simp [collectScope] at h
      | cons p rest =>
          rw [collectScope, List.nil_append, List.cons.injEq] at h
          exact ⟨p, List.mem_cons_self, h.1.symm⟩
  | cons first before ih =>
      cases nodes with
      | nil => simp [collectScope] at h
      | cons p rest =>
          rw [collectScope, List.cons_append, List.cons.injEq] at h
          obtain ⟨rfl, h⟩ := h
          obtain ⟨q, hq, he⟩ := ih h
          exact ⟨q, List.mem_cons_of_mem p hq, he⟩

/-- A loop exposes its outputs to the nodes outside its body. To those in its body it exposes items, the
number of the round and variables, which have their types from the entries before it in the scope. -/
theorem Workflow.arguments_of_loop_entry (w : Workflow) (further : List Argument) {target : NodeId}
    {before after : List ScopeNode} {e : ScopeNode}
    (hsplit : (w.scope further target).previous = before ++ e :: after) (hloop : e.type = .loop) :
    ∃ t l, w.index.position? target = some t ∧ w.index.position? e.id = some l ∧
      (w.index.nodeAt l).isLoop = true ∧
      (l ∉ w.index.loopChain t → e.arguments = (w.index.nodeAt l).config.outputs) ∧
      (l ∈ w.index.loopChain t →
        (w.index.nodeAt l).SeenFromBody (.ofEntries before) e.arguments) := by
  cases ht : w.index.position? target with
  | none => simp [scope, ht] at hsplit
  | some t =>
      rw [w.scope_eq_scopeAt further ht, Index.previous_scopeAt] at hsplit
      obtain ⟨l, hl, hentry⟩ := exists_of_collectScope_eq_append hsplit
      have htype : (w.index.nodeAt l).type = .loop := by
        rw [← hloop, hentry]
        rfl
      have harguments := Index.arguments_previousEntry_of_loop htype
        (w.allSystemVariables further) (w.index.loopChain t) (w.index.discover t) (.ofEntries before)
      rw [ArgumentMap.ofEntries, ← hentry] at harguments
      have hid : e.id = (w.index.nodeAt l).id := by
        rw [hentry]
        rfl
      have hlt := Index.lt_of_mem_scopeOrder w.index_wellFormed hl
      refine ⟨t, l, rfl, ?_, ?_, fun houtside => ?_, fun hinside => ?_⟩
      · rw [hid, Index.position?_nodeAt w.index_wellFormed hlt]
      · rw [Node.isLoop, htype]
        rfl
      · rw [harguments, if_neg houtside]
      · rw [harguments, if_pos hinside]
        exact Node.seenFromBody_loopArguments _ _

namespace LoopEntriesWitness

def cells : Argument :=
  { Argument.typed "cells" (.array .object) with fields := [.typed "text" .string] }

/-- A loop goes through rows, and a loop in its body through the cells of each row. -/
def workflow : Workflow where
  nodes := [
    { id := ⟨"1"⟩, type := .start, next := [⟨"2"⟩], config := {
        outputs := [{ Argument.typed "rows" (.array .object) with fields := [cells] }] } },
    { id := ⟨"2"⟩, type := .loop, config := {
        inputs := [(Argument.typed "row" .string).boundTo "1.rows"] } },
    { id := ⟨"3"⟩, type := .loop, loop := some ⟨"2"⟩, next := [⟨"2"⟩], config := {
        inputs := [(Argument.typed "cell" .string).boundTo "2.row_item.cells"]
        vars := [{ name := "last" }] } },
    { id := ⟨"4"⟩, type := .code, loop := some ⟨"3"⟩, next := [⟨"3"⟩] }]

/-- The start and the outer loop, as the code in the inner loop sees them. -/
def before : List ScopeNode := (workflow.scope [] ⟨"4"⟩).previous.take 2

/-- The items of the inner loop have their fields from the items of the outer one. -/
def inner : ScopeNode where
  id := ⟨"3"⟩
  name := ""
  type := .loop
  arguments := [
    { Argument.typed "cell_item" .object with fields := [.typed "text" .string] },
    .provided "INDEX" .integer "Array index",
    { name := "last" }]
  viaException := false

theorem arguments_of_loop_entry_nested :
    (workflow.scope [] ⟨"4"⟩).previous = before ++ [inner] ∧ inner.type = .loop ∧
      (workflow.index.nodeAt 2).SeenFromBody (.ofEntries before) inner.arguments := by
  have hsplit : (workflow.scope [] ⟨"4"⟩).previous = before ++ [inner] := by rfl
  obtain ⟨t, l, ht, hl, -, -, hinside⟩ := workflow.arguments_of_loop_entry [] hsplit rfl
  have htarget : workflow.index.position? ⟨"4"⟩ = some 3 := by decide
  have hentry : workflow.index.position? inner.id = some 2 := by decide
  obtain rfl : 3 = t := Option.some.inj (htarget.symm.trans ht)
  obtain rfl : 2 = l := Option.some.inj (hentry.symm.trans hl)
  exact ⟨hsplit, rfl, hinside (by decide)⟩

end LoopEntriesWitness

end FlowScope
