import FlowScope.Proofs.Declared
import FlowScope.Proofs.ScopeKeys
import FlowScope.Proofs.TokenPieces
/-!
Where references lead that are not reported. What a reference resolves to has been put into the scope by
a node of the scope, and that is the node which the token names, even if identifiers and names with
dots or blanks are around: the key that a token leads to belongs to one node and one argument only.
So the node holding the reference is listed among those that depend on the source.
-/
namespace FlowScope

theorem Index.mem_pickReferences_iff {ix : Index} {pick : Nat → List FieldReference}
    {d : NodeReferences} : d ∈ ix.pickReferences pick ↔
      ∃ i < ix.size, pick i ≠ [] ∧ d = ⟨(ix.nodeAt i).id, (ix.nodeAt i).name, pick i⟩ := by
  rw [pickReferences, List.mem_filterMap]
  simp only [positions, List.mem_range]
  refine exists_congr fun i => and_congr_right fun _ => ?_
  cases pick i with
  | nil => simp
  | cons r rest => simp [eq_comm]

/-- What a token resolves to in a scope comes from the argument and the node that the token names. -/
theorem Workflow.exists_exposing_of_resolve? (w : Workflow) (further : List Argument)
    (target : NodeId) {s : String} {a : Argument}
    (h : (w.scope further target).arguments.resolve? s = some a) :
    ∃ t, Token.parse? s = some t ∧
      ∃ e ∈ (w.scope further target).previous ++ (w.scope further target).inner,
        e.id = t.node ∧ ∃ b ∈ e.arguments, b.name = t.argument := by
  obtain ⟨t, b, hparse, hget, -⟩ := ArgumentMap.resolve?_eq_some_iff.mp h
  have hcontains : (w.scope further target).arguments.contains t.root = true := by
    rw [ArgumentMap.contains, hget, Option.isSome_some]
  obtain ⟨e, he, c, hc, hkey⟩ := (w.contains_scope_iff further target).mp hcontains
  obtain ⟨hnode, hname⟩ := (Token.key_eq_root_iff hparse).mp hkey.symm
  exact ⟨t, hparse, e, he, hnode, c, hc, hname⟩

/-- A reference that is not reported resolves in the scope of its node. -/
theorem Workflow.exists_resolve?_of_not_reported (w : Workflow) (further : List Argument) {id : NodeId}
    {t : Nat} (ht : w.index.position? id = some t) {r : FieldReference}
    (hr : r ∈ (w.index.nodeAt t).references)
    (hfine : ∀ issue ∈ w.check further, issue.node = id → r ∉ issue.references) :
    ∃ a, (w.scope further id).arguments.resolve? r.token = some a := by
  obtain ⟨hlt, hid⟩ := (Index.position?_eq_some_iff w.index_sound).mp ht
  have hscope : w.scope further id = w.index.scopeAt (w.allSystemVariables further) t := by
    rw [scope, ht]
  rw [hscope]
  by_contra hnone
  have hdangling : r ∈ (w.index.nodeAt t).dangling
      (w.index.scopeAt (w.allSystemVariables further) t).arguments := by
    rw [Node.mem_dangling_iff]
    exact ⟨hr, Option.eq_none_iff_forall_ne_some.mpr fun a ha => hnone ⟨a, ha⟩⟩
  refine hfine _ (Index.mem_pickReferences_iff.mpr ⟨t, hlt, ?_, rfl⟩) hid hdangling
  exact List.ne_nil_of_mem hdangling

/-- A node that holds a reference is listed among those that depend on the source of it. -/
theorem Workflow.exists_mem_dependents (w : Workflow) {id : NodeId} {t : Nat}
    (ht : w.index.position? id = some t) {r : FieldReference}
    (hr : r ∈ (w.index.nodeAt t).references) {source : NodeId} (hsource : r.source = some source) :
    ∃ d ∈ w.dependents source, d.node = id ∧ r ∈ d.references := by
  obtain ⟨hlt, hid⟩ := (Index.position?_eq_some_iff w.index_sound).mp ht
  have hpoints : r ∈ (w.index.nodeAt t).referencesTo source := by
    rw [Node.referencesTo, List.mem_filter]
    exact ⟨hr, by simp [FieldReference.pointsAt, hsource]⟩
  refine ⟨_, Index.mem_pickReferences_iff.mpr ⟨t, hlt, ?_, rfl⟩, hid, hpoints⟩
  exact List.ne_nil_of_mem hpoints

/-- A reference that is not reported has a source, which is a node of the scope that exposes the
argument named in the token, and of which the node with the reference is listed as a dependent. -/
theorem Workflow.source_of_not_reported (w : Workflow) (further : List Argument) {id : NodeId}
    {t : Nat} (ht : w.index.position? id = some t) {r : FieldReference}
    (hr : r ∈ (w.index.nodeAt t).references)
    (hfine : ∀ issue ∈ w.check further, issue.node = id → r ∉ issue.references) :
    ∃ token, Token.parse? r.token = some token ∧ r.source = some token.node ∧
      (∃ e ∈ (w.scope further id).previous ++ (w.scope further id).inner,
        e.id = token.node ∧ ∃ a ∈ e.arguments, a.name = token.argument) ∧
      ∃ d ∈ w.dependents token.node, d.node = id ∧ r ∈ d.references := by
  obtain ⟨a, ha⟩ := w.exists_resolve?_of_not_reported further ht hr hfine
  obtain ⟨token, hparse, hexposed⟩ := w.exists_exposing_of_resolve? further id ha
  have hsource : r.source = some token.node := by rw [FieldReference.source, hparse, Option.map_some]
  exact ⟨token, hparse, hsource, hexposed, w.exists_mem_dependents ht hr hsource⟩

namespace ReferenceSourcesWitness

/-- Two nodes expose something under the same text: the first a field of its argument, the second
an argument of its own. -/
def workflow : Workflow where
  nodes := [
    { id := ⟨"1"⟩, type := .start, next := [⟨"1.doc"⟩], config := { outputs := [
        { Argument.typed "doc" .object with fields := [.typed "title" .string] }] } },
    { id := ⟨"1.doc"⟩, type := .code, next := [⟨"3"⟩], config := {
        outputs := [.typed "title" .string] } },
    { id := ⟨"3"⟩, type := .finish, config := { content := some "Read \x7b\x7b 1.doc.title \x7d\x7d" } }]

theorem source_of_not_reported_dotted :
    workflow.index.position? ⟨"3"⟩ = some 2 ∧ (workflow.check []).isEmpty = true ∧
      (⟨"content", "1.doc.title"⟩ : FieldReference) ∈ (workflow.index.nodeAt 2).references ∧
      (∃ e ∈ (workflow.scope [] ⟨"3"⟩).previous ++ (workflow.scope [] ⟨"3"⟩).inner,
        e.id = ⟨"1"⟩ ∧ ∃ a ∈ e.arguments, a.name = "doc") ∧
      ∃ d ∈ workflow.dependents ⟨"1"⟩, d.node = ⟨"3"⟩ := by
  have ht : workflow.index.position? ⟨"3"⟩ = some 2 := by decide
  have hcheck : (workflow.check []).isEmpty = true := by decide
  have hr : (⟨"content", "1.doc.title"⟩ : FieldReference) ∈ (workflow.index.nodeAt 2).references := by
    decide
  obtain ⟨token, hparse, -, hexposed, d, hd, hnode, -⟩ :=
    workflow.source_of_not_reported [] ht hr fun issue h => by
      rw [List.isEmpty_iff.mp hcheck] at h
      exact absurd h List.not_mem_nil
  obtain rfl : (⟨⟨"1"⟩, "doc", ["title"]⟩ : Token) = token := by
    have hread : Token.parse? "1.doc.title" = some ⟨⟨"1"⟩, "doc", ["title"]⟩ := by decide
    rw [hread] at hparse
    exact Option.some.inj hparse
  exact ⟨ht, hcheck, hr, hexposed, d, hd, hnode⟩

end ReferenceSourcesWitness

end FlowScope
