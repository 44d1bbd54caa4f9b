import FlowScope.Proofs.ReferenceSources
import Mathlib.Data.List.ReduceOption
/-!
The references of a loop. What a check looks for in a loop are its inputs, its variables and its free
texts. An output that is bound to a token is checked only as far as one of these has the same token.
-/
namespace FlowScope

namespace FieldReference

theorem mem_ofArguments_iff {c : NodeConfig} {f : ArgumentField} {r : FieldReference} :
    r ∈ ofArguments c f ↔ ∃ i a, (f.arguments c)[i]? = some a ∧ a.reference = some r.token ∧
      r.field = numbered f.name i ++ "." ++ a.name := by
  obtain ⟨field, token⟩ := r
  rw [ofArguments, List.reduceOption_mem_iff, List.mem_mapIdx]
  constructor
  · rintro ⟨i, hi, hsome⟩
    obtain ⟨token', hbound, heq⟩ := Option.map_eq_some_iff.mp hsome
    obtain ⟨rfl, rfl⟩ := FieldReference.mk.inj heq
    exact ⟨i, _, List.getElem?_eq_getElem hi, hbound, rfl⟩
  · rintro ⟨i, a, hget, hbound, rfl⟩
    obtain ⟨hi, rfl⟩ := List.getElem?_eq_some_iff.mp hget
    exact ⟨i, hi, by simp only [hbound, Option.map_some]⟩

theorem mem_ofText_iff {c : NodeConfig} {f : TextField} {r : FieldReference} :
    r ∈ ofText c f ↔ r.field = f.name ∧ ∃ s ∈ f.value c, r.token ∈ Template.tokens s := by
  obtain ⟨field, token⟩ := r
  rw [ofText]
  cases f.value c with
  | none => simp
  | some s => simp [eq_comm, and_comm]

end FieldReference

/-- One of the lists of arguments has an argument that is bound to the token. -/
def Node.Binds (n : Node) (lists : List ArgumentField) (token : String) : Prop :=
  ∃ f ∈ lists, ∃ a ∈ f.arguments n.config, a.reference = some token

/-- One of the free texts has the token in braces. -/
def Node.Quotes (n : Node) (token : String) : Prop :=
  ∃ f ∈ TextField.all, ∃ s ∈ f.value n.config, token ∈ Template.tokens s

/-- A node without conditions holds references in the lists that count for its type and in its free
texts. -/
theorem Node.exists_mem_references_iff {n : Node} (hplain : n.type.hasConditions = false)
    {token : String} : (∃ r ∈ n.references, r.token = token) ↔
      n.Binds (ArgumentField.ofType n.type) token ∨ n.Quotes token := by
  simp only [references, hplain, Bool.false_eq_true, ↓reduceIte, List.append_nil, List.mem_append,
    List.mem_flatMap, or_and_right, exists_or]
  refine or_congr ?_ ?_
  · constructor
    · rintro ⟨r, ⟨f, hf, hr⟩, rfl⟩
      obtain ⟨i, a, hget, hbound, -⟩ := FieldReference.mem_ofArguments_iff.mp hr
      exact ⟨f, hf, a, List.mem_of_getElem? hget, hbound⟩
    · rintro ⟨f, hf, a, ha, hbound⟩
      obtain ⟨i, hget⟩ := List.mem_iff_getElem?.mp ha
      have hlisted : (⟨FieldReference.numbered f.name i ++ "." ++ a.name, token⟩ : FieldReference) ∈
          FieldReference.ofArguments n.config f :=
        FieldReference.mem_ofArguments_iff.mpr ⟨i, a, hget, hbound, rfl⟩
      exact ⟨_, ⟨f, hf, hlisted⟩, rfl⟩
  · constructor
    · rintro ⟨r, ⟨f, hf, hr⟩, rfl⟩
      exact ⟨f, hf, (FieldReference.mem_ofText_iff.mp hr).2⟩
    · rintro ⟨f, hf, hquoted⟩
      exact ⟨⟨_, token⟩, ⟨f, hf, FieldReference.mem_ofText_iff.mpr ⟨rfl, hquoted⟩⟩, rfl⟩

/-- Where references are looked for in a loop: its inputs, its variables and its free texts. -/
def Node.ShowsInLoop (n : Node) (token : String) : Prop :=
  n.Binds [.inputs, .vars] token ∨ n.Quotes token

theorem Node.exists_mem_references_iff_of_isLoop {n : Node} (hloop : n.isLoop = true)
    {token : String} : (∃ r ∈ n.references, r.token = token) ↔ n.ShowsInLoop token := by
  have htype : n.type = .loop := by simpa [isLoop] using hloop
  rw [exists_mem_references_iff (by rw [htype]; rfl), htype]
  rfl

/-- What a report has for a node of the index is what was picked at its position. -/
theorem Index.mem_pickReferences_nodeAt_iff {ix : Index} (h : ix.WellFormed)
    {pick : Nat → List FieldReference} {t : Nat} (ht : t < ix.size) {d : NodeReferences} :
    d ∈ ix.pickReferences pick ∧ d.node = (ix.nodeAt t).id ↔
      pick t ≠ [] ∧ d = ⟨(ix.nodeAt t).id, (ix.nodeAt t).name, pick t⟩ := by
  rw [Index.mem_pickReferences_iff]
  constructor
  · rintro ⟨⟨i, hi, hpick, rfl⟩, hid⟩
    have hsame : some i = some t := by
      rw [← Index.position?_nodeAt h hi, ← Index.position?_nodeAt h ht]
      exact congrArg ix.position? hid
    obtain rfl := Option.some.inj hsame
    exact ⟨hpick, rfl⟩
  · rintro ⟨hpick, rfl⟩
    exact ⟨⟨t, ht, hpick, rfl⟩, rfl⟩

namespace Workflow

variable (w : Workflow) (further : List Argument)

/-- The check reports the token at the node. -/
def Reports (id : NodeId) (token : String) : Prop :=
  ∃ issue ∈ w.check further, issue.node = id ∧ ∃ r ∈ issue.references, r.token = token

/-- The node is listed among those that depend on the source. -/
def ListsDependent (source id : NodeId) : Prop := ∃ d ∈ w.dependents source, d.node = id

/-- If the argument is bound to a token, the token is reported when the scope of the node has nothing
for it, and the node is listed among those that depend on the node which the token names. -/
def Covers (n : Node) (a : Argument) : Prop :=
  ∀ token, a.reference = some token →
    ((w.scope further n.id).arguments.resolve? token = none → w.Reports further n.id token) ∧
      ∀ source, (Token.parse? token).map (·.node) = some source → w.ListsDependent source n.id

variable {w further} {t : Nat}

theorem reports_iff (ht : t < w.index.size) {token : String} :
    w.Reports further (w.index.nodeAt t).id token ↔
      (∃ r ∈ (w.index.nodeAt t).references, r.token = token) ∧
        (w.scope further (w.index.nodeAt t).id).arguments.resolve? token = none := by
  have hscope : w.scope further (w.index.nodeAt t).id =
      w.index.scopeAt (w.allSystemVariables further) t := by
    rw [scope, Index.position?_nodeAt w.index_wellFormed ht]
  rw [Reports, check, hscope]
  simp only [← and_assoc (b := _ = (w.index.nodeAt t).id),
    Index.mem_pickReferences_nodeAt_iff w.index_wellFormed ht]
  constructor
  · rintro ⟨-, ⟨-, rfl⟩, r, hr, rfl⟩
    obtain ⟨hr, hnone⟩ := Node.mem_dangling_iff.mp hr
    exact ⟨⟨r, hr, rfl⟩, hnone⟩
  · rintro ⟨⟨r, hr, rfl⟩, hnone⟩
    have hdangling := Node.mem_dangling_iff.mpr ⟨hr, hnone⟩
    exact ⟨_, ⟨List.ne_nil_of_mem hdangling, rfl⟩, r, hdangling, rfl⟩

theorem listsDependent_iff (ht : t < w.index.size) {source : NodeId} :
    w.ListsDependent source (w.index.nodeAt t).id ↔
      ∃ r ∈ (w.index.nodeAt t).references, r.source = some source := by
  simp only [ListsDependent, dependents, Index.mem_pickReferences_nodeAt_iff w.index_wellFormed ht,
    exists_and_left, exists_eq, and_true, Node.referencesTo]
  simp [List.filter_eq_nil_iff, FieldReference.pointsAt]

/-- The tokens that are reported at a loop are those of its inputs, its variables and its free texts
that its scope has nothing for, and it is listed as a dependent of the nodes that such tokens name. So
an input and a variable never escape, and an output does not if its token stands in one of these as
well, when the scope has nothing for it, and the node of the token is named in one of these in any
case. -/
theorem loop_bindings_covered (w : Workflow) (further : List Argument) {t : Nat}
    (ht : t < w.index.size) (hloop : (w.index.nodeAt t).isLoop = true) :
    (∀ token, w.Reports further (w.index.nodeAt t).id token ↔ (w.index.nodeAt t).ShowsInLoop token ∧
      (w.scope further (w.index.nodeAt t).id).arguments.resolve? token = none) ∧
    (∀ source, w.ListsDependent source (w.index.nodeAt t).id ↔
      ∃ token, (w.index.nodeAt t).ShowsInLoop token ∧
        (Token.parse? token).map (·.node) = some source) ∧
    (∀ a ∈ (w.index.nodeAt t).config.inputs ++ (w.index.nodeAt t).config.vars,
      w.Covers further (w.index.nodeAt t) a) ∧
    ∀ a ∈ (w.index.nodeAt t).config.outputs, (w.Covers further (w.index.nodeAt t) a ↔
      ∀ token, a.reference = some token →
        ((w.scope further (w.index.nodeAt t).id).arguments.resolve? token = none →
          (w.index.nodeAt t).ShowsInLoop token) ∧
        ∀ source, (Token.parse? token).map (·.node) = some source →
          ∃ other, (w.index.nodeAt t).ShowsInLoop other ∧
            (Token.parse? other).map (·.node) = some source) := by
  have hshows : ∀ token, (∃ r ∈ (w.index.nodeAt t).references, r.token = token) ↔
      (w.index.nodeAt t).ShowsInLoop token := fun token =>
    Node.exists_mem_references_iff_of_isLoop hloop
  have hreports : ∀ token, w.Reports further (w.index.nodeAt t).id token ↔
      (w.index.nodeAt t).ShowsInLoop token ∧
        (w.scope further (w.index.nodeAt t).id).arguments.resolve? token = none := by
    intro token
    rw [reports_iff ht, hshows]
  have hlists : ∀ source, w.ListsDependent source (w.index.nodeAt t).id ↔
      ∃ token, (w.index.nodeAt t).ShowsInLoop token ∧
        (Token.parse? token).map (·.node) = some source := by
    intro source
    rw [listsDependent_iff ht]
    simp only [← hshows]
    constructor
    · rintro ⟨r, hr, hsource⟩
      exact ⟨r.token, ⟨r, hr, rfl⟩, hsource⟩
    · rintro ⟨token, ⟨r, hr, rfl⟩, hsource⟩
      exact ⟨r, hr, hsource⟩
  refine ⟨hreports, hlists, fun a ha token hbound => ?_, fun a _ => ?_⟩
  · have hshown : (w.index.nodeAt t).ShowsInLoop token := by
      rcases List.mem_append.mp ha with ha | ha
      · exact Or.inl ⟨.inputs, by simp, a, ha, hbound⟩
      · exact Or.inl ⟨.vars, by simp, a, ha, hbound⟩
    exact ⟨fun hnone => (hreports token).mpr ⟨hshown, hnone⟩,
      fun source hsource => (hlists source).mpr ⟨token, hshown, hsource⟩⟩
  · refine forall₂_congr fun token _ => and_congr (forall_congr' fun hnone => ?_) ?_
    · rw [hreports, and_iff_left hnone]
    · simp only [hlists]

end Workflow

namespace LoopBindingsWitness

/-- A loop with an output of its body, `2.out`. Its variable is bound to a node that is not there, its
own output to something that the end of its body does not have. -/
def workflow : Workflow where
  nodes := [{
    id := ⟨"1"⟩
    type := .loop
    innerEnd := some ⟨"2"⟩
    inner := [{ id := ⟨"2"⟩, type := .code, config := { outputs := [.typed "out" .string] } }]
    config := {
      vars := [(Argument.typed "last" .string).boundTo "9.text"]
      outputs := [(Argument.typed "all" (.array .object)).boundTo "2.gone"] } }]

theorem loop_bindings_covered_variable :
    0 < workflow.index.size ∧ (workflow.index.nodeAt 0).isLoop = true ∧
      workflow.Reports [] ⟨"1"⟩ "9.text" ∧ workflow.ListsDependent ⟨"9"⟩ ⟨"1"⟩ := by
  have ht : 0 < workflow.index.size := by decide
  have hloop : (workflow.index.nodeAt 0).isLoop = true := by decide
  have hnone : (workflow.scope [] ⟨"1"⟩).arguments.resolve? "9.text" = none := by rfl
  have hsource : (Token.parse? "9.text").map (·.node) = some ⟨"9"⟩ := by decide
  obtain ⟨-, -, hcovered, -⟩ := workflow.loop_bindings_covered [] ht hloop
  obtain ⟨hreports, hlists⟩ := hcovered _ List.mem_cons_self "9.text" rfl
  exact ⟨ht, hloop, hreports hnone, hlists _ hsource⟩

/-- Not every binding of a loop is checked: an output may be bound to what is not there, and nothing
says so. -/
theorem not_covers_output :
    ¬ ∀ (w : Workflow) (t : Nat), t < w.index.size → (w.index.nodeAt t).isLoop = true →
      ∀ a ∈ (w.index.nodeAt t).config.inputs ++ (w.index.nodeAt t).config.vars ++
        (w.index.nodeAt t).config.outputs, w.Covers [] (w.index.nodeAt t) a := by
  intro h
  have hcovers := h workflow 0 (by decide) (by decide) _
    (List.mem_append_right _ List.mem_cons_self) "2.gone" rfl
  have hnone : (workflow.scope [] ⟨"1"⟩).arguments.resolve? "2.gone" = none := by rfl
  have hcheck : workflow.check [] = [⟨⟨"1"⟩, "", [⟨"variableArgs[0].last", "9.text"⟩]⟩] := by decide
  obtain ⟨issue, hissue, -, r, hr, htoken⟩ := hcovers.1 hnone
  rw [hcheck, List.mem_singleton] at hissue
  subst hissue
  rw [List.mem_singleton.mp hr] at htoken
  exact absurd htoken (by decide)

end LoopBindingsWitness

end FlowScope
