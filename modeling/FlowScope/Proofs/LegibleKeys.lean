import FlowScope.Proofs.ScopeKeys
import FlowScope.Proofs.TokenPieces
/-!
Which keys are understood as references. A scope looks up a key as it is, and that finds the argument of
which it is the key. A reference is read as a token first, and this agrees with the look-up for the keys
of legible arguments. For any other identifier and name there is a workflow that offers the key and
then reports a reference to it as dangling.
-/
namespace FlowScope

namespace ArgumentMap

/-- The key of a legible argument is followed to where it is looked up. -/
theorem resolve?_eq_get? (m : ArgumentMap) {node : NodeId} {argument : String}
    (h : Token.Legible node argument) :
    m.resolve? (Token.key node argument) = m.get? (Token.key node argument) := by
  rw [resolve?, Token.legible_iff.mp h]
  simp [Token.root, Argument.path?]

theorem exists_resolve?_of_contains {m : ArgumentMap} {node : NodeId} {argument : String}
    (h : Token.Legible node argument) (hcontains : m.contains (Token.key node argument) = true) :
    ∃ a, m.get? (Token.key node argument) = some a ∧
      m.resolve? (Token.key node argument) = some a := by
  obtain ⟨a, ha⟩ := Option.isSome_iff_exists.mp hcontains
  exact ⟨a, ha, (m.resolve?_eq_get? h).trans ha⟩

end ArgumentMap

/-- A loop with one variable, and no other nodes. -/
def loneLoop (node : NodeId) (name : String) : Workflow where
  nodes := [{ id := node, type := .loop, config := { vars := [{ name }] } }]

/-- A node with one input, bound to a token. -/
def boundNode (token : String) : Node where
  id := ⟨"1"⟩
  type := .code
  config := { inputs := [({ name := "input" } : Argument).boundTo token] }

theorem index_loneLoop (node : NodeId) (name : String) :
    (loneLoop node name).index = {
      placed := [⟨{ id := node, type := .loop, config := { vars := [{ name }] } }, none⟩]
      parents := [none]
      outgoing := [[]]
      incoming := [[]] } := rfl

/-- The scope of the loop itself has its variable, under the key of that, and nothing else. -/
theorem scope_loneLoop (node : NodeId) (name : String) :
    (loneLoop node name).scope [] node = {
      previous := []
      inner := [⟨node, "", .loop, [{ name }], false⟩]
      arguments := ⟨[(Token.key node name, { name })]⟩ } := by
  have hposition : (loneLoop node name).index.position? node = some 0 := by
    simp [index_loneLoop, Index.position?, Placed.position?]
  have hprevious : (loneLoop node name).index.scopeOrder 0 = [] := by
    rw [index_loneLoop]
    rfl
  have hbody : (loneLoop node name).index.bodyOrder 0 = [] := by
    rw [index_loneLoop]
    rfl
  rw [Workflow.scope, hposition]
  simp only [Index.scopeAt, hprevious, hbody, collectScope]
  rw [index_loneLoop]
  rfl

theorem exists_exposes_loneLoop (node : NodeId) (name : String) :
    ∃ e ∈ ((loneLoop node name).scope [] node).previous ++ ((loneLoop node name).scope [] node).inner,
      e.Exposes (Token.key node name) := by
  rw [scope_loneLoop]
  exact ⟨_, List.mem_singleton_self _, _, List.mem_singleton_self _, rfl⟩

theorem references_boundNode {token : String} (h : token ≠ "") :
    (boundNode token).references = [⟨"inputArgs[0].input", token⟩] := by
  have hinput := Argument.reference_boundTo (a := { name := "input" }) h
  have hinputs : FieldReference.ofArguments (boundNode token).config .inputs =
      [⟨"inputArgs[0].input", token⟩] := by
    simp only [FieldReference.ofArguments, ArgumentField.arguments, boundNode, List.mapIdx_cons,
      hinput, List.mapIdx_nil]
    rfl
  rw [Node.references]
  simp only [boundNode, ArgumentField.ofType] at hinputs ⊢
  rw [List.flatMap_singleton, hinputs]
  rfl

namespace Token

variable {node : NodeId} {name : String}

theorem key_ne_empty (node : NodeId) (name : String) : key node name ≠ "" := by
  intro h
  have hlength := congrArg String.length h
  simp [key] at hlength

/-- In a scope with one variable only, its key is followed to something only if it is legible. -/
theorem legible_of_resolve? {a : Argument}
    (h : ((loneLoop node name).scope [] node).arguments.resolve? (key node name) = some a) :
    Legible node name := by
  rw [scope_loneLoop, ArgumentMap.resolve?_eq_some_iff] at h
  obtain ⟨t, b, hparse, hget, hpath⟩ := h
  have hfound : t.root = key node name ∧ ({ name } : Argument) = b := by
    simpa [ArgumentMap.get?, lookup?] using hget
  obtain ⟨hroot, rfl⟩ := hfound
  obtain ⟨rfl, rfl⟩ := (key_eq_root_iff hparse).mp hroot.symm
  have hfields : t.fields = [] := by
    cases hfields : t.fields with
    | nil => rfl
    | cons field rest => simp [hfields, Argument.path?, Argument.field?] at hpath
  rw [legible_iff, hparse, ← hfields]

/-- A key leads to the argument that it is looked up for, in every scope that has it, exactly when its
identifier and its name are legible; and exactly then no reference to it is dangling in a scope that
offers it. Every key of a scope has an identifier and a name. -/
theorem legible_iff_forall_scope (node : NodeId) (name : String) :
    (Legible node name ↔ ∀ (w : Workflow) (further : List Argument) (target : NodeId),
      (w.scope further target).arguments.contains (key node name) = true →
        ∃ a, (w.scope further target).arguments.get? (key node name) = some a ∧
          (w.scope further target).arguments.resolve? (key node name) = some a) ∧
    (Legible node name ↔ ∀ (w : Workflow) (further : List Argument) (target : NodeId),
      (∃ g ∈ (w.scope further target).picker, ∃ v ∈ g.vars, v.key = key node name) →
        ∀ (n : Node), ∀ r ∈ n.references, r.token = key node name →
          r ∉ n.dangling (w.scope further target).arguments) ∧
    ∀ (w : Workflow) (further : List Argument) (target : NodeId) (k : String),
      (w.scope further target).arguments.contains k = true → ∃ node name, k = key node name := by
  have hoffered := exists_exposes_loneLoop node name
  refine ⟨⟨fun h w further target => ArgumentMap.exists_resolve?_of_contains h, fun h => ?_⟩,
    ⟨fun h => ?_, fun h => ?_⟩, ?_⟩
  · have hcontains := ((loneLoop node name).contains_scope_iff [] node).mpr hoffered
    obtain ⟨a, -, ha⟩ := h (loneLoop node name) [] node hcontains
    exact legible_of_resolve? ha
  · intro w further target hpicker n r _ htoken hdangling
    have hexposed := Scope.exists_mem_picker_iff.mp hpicker
    have hcontains := (w.contains_scope_iff further target).mpr hexposed
    obtain ⟨a, -, ha⟩ := ArgumentMap.exists_resolve?_of_contains h hcontains
    rw [Node.mem_dangling_iff, htoken, ha] at hdangling
    exact Option.some_ne_none a hdangling.2
  · have hmem : (⟨"inputArgs[0].input", key node name⟩ : FieldReference) ∈
        (boundNode (key node name)).references := by
      rw [references_boundNode (key_ne_empty node name)]
      exact List.mem_singleton_self _
    have hfine := h (loneLoop node name) [] node (Scope.exists_mem_picker_iff.mpr hoffered) _ _ hmem rfl
    rw [Node.mem_dangling_iff, not_and] at hfine
    obtain ⟨a, ha⟩ := Option.ne_none_iff_exists'.mp (hfine hmem)
    exact legible_of_resolve? ha
  · intro w further target k hcontains
    obtain ⟨e, -, a, -, rfl⟩ := (w.contains_scope_iff further target).mp hcontains
    exact ⟨_, _, rfl⟩

end Token

namespace LegibleKeysWitness

/-- The start has an output with a dot in its name, and the second node refers to it. -/
def workflow : Workflow where
  nodes := [
    { id := ⟨"1"⟩, type := .start, next := [⟨"2"⟩], config := {
        outputs := [.typed "user.name" .string] } },
    { id := ⟨"2"⟩, type := .finish, config := {
        inputs := [(Argument.typed "name" .string).boundTo "1.user.name"] } }]

/-- A key of the scope that is offered as a choice, and a reference to it that is reported. -/
theorem not_resolve?_of_contains :
    ¬ ∀ (w : Workflow) (further : List Argument) (target : NodeId) (k : String),
      (w.scope further target).arguments.contains k = true →
        ∃ a, (w.scope further target).arguments.get? k = some a ∧
          (w.scope further target).arguments.resolve? k = some a := by
  intro hclaim
  obtain ⟨a, -, ha⟩ := hclaim workflow [] ⟨"2"⟩ "1.user.name" (by decide)
  have hnone : ((workflow.scope [] ⟨"2"⟩).arguments.resolve? "1.user.name").isNone = true := by decide
  rw [ha] at hnone
  exact Bool.noConfusion hnone

end LegibleKeysWitness

end FlowScope
