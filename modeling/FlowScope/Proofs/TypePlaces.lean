import FlowScope.Proofs.RewrittenDocuments
import FlowScope.Proofs.WrittenWorkflows
/-!
The places of a workflow where a type stands: in arguments and in the arguments inside them, and in
the operands of conditions, in nodes that may be nested. A tag that is not known leaves a type out and
no more. So when the tag in one place of a document becomes any other text, the document is read as
before, and the workflow has the type of the new tag in that place, or none, and is the same everywhere
else.
-/
namespace FlowScope

open Json (Follows)

/-- A part that a value has can be replaced, and then it is there; and the old one can be put back. -/
def Replaceable {α β : Type} (get? : α → Option β) (put : α → β → α) : Prop :=
  ∀ ⦃a : α⦄ ⦃x : β⦄, get? a = some x → ∀ y, get? (put a y) = some y ∧ put (put a y) x = a

theorem Replaceable.item {α β : Type} {get? : α → Option β} {put : α → β → α}
    (h : Replaceable get? put) (i : Nat) :
    Replaceable (fun as : List α => as[i]?.bind get?) fun as b => as.modify i (put · b) := by
  intro as x hx y
  obtain ⟨a, ha, hx⟩ := Option.bind_eq_some_iff.mp hx
  obtain ⟨hnew, hback⟩ := h hx y
  constructor
  · simp only [List.getElem?_modify_eq, ha, Option.map_eq_map, Option.map_some, Option.bind_some]
    exact hnew
  · apply List.ext_getElem?
    intro k
    simp only [List.getElem?_modify]
    by_cases hk : i = k
    · subst hk
      simp [ha, hback]
    · simp [hk]

namespace DataType

/-- No type has a blank tag. -/
theorem lenient_eq_ofTag? (tag : String) : lenient tag = ofTag? tag := by
  rw [lenient]
  split
  · next hblank =>
      symm
      rw [Option.eq_none_iff_forall_ne_some]
      intro type htype
      have hread : ofTag tag = .ok type := by
        rw [ofTag?] at htype
        cases h : ofTag tag with
        | error reason => simp [h, Except.toOption] at htype
        | ok other => simpa [h, Except.toOption] using htype
      rcases ofTag_eq_ok_iff.mp hread with ⟨-, rfl⟩ | ⟨⟨n, rfl⟩, -⟩
      · rw [isAllBlank_tag] at hblank
        exact Bool.noConfusion hblank
      · rw [inArrays, Text.isAllBlank, String.toList_append] at hblank
        simp [Text.isBlank] at hblank
  · rfl

theorem follows_readLenient : Follows readLenient [] ofTag? some fun _ type => type := by
  intro old new j j' hj depth type h
  cases hj with
  | here =>
      obtain rfl : lenient old = type := Except.ok.inj h
      exact ⟨congrArg some (lenient_eq_ofTag? old), congrArg Except.ok (lenient_eq_ofTag? new)⟩

end DataType

namespace Argument

/-- Where a type stands in an argument: its own, the one before its values were collected, or one in an
argument inside it. -/
inductive TypePlace where
  | type
  | originType
  | field (i : Nat) (place : TypePlace)
deriving DecidableEq, Repr

/-- The path to the tag of a type. -/
def TypePlace.path : TypePlace → List Json.Step
  | type => [layout.step .type]
  | originType => [layout.step .originType]
  | field i place => layout.step .fields :: .item i :: place.path

/-- The type in a place, if there is such a place. -/
def typeAt? (a : Argument) : TypePlace → Option (Option DataType)
  | .type => some a.type
  | .originType => some a.originType
  | .field i place => a.fields[i]?.bind (·.typeAt? place)

/-- The argument with another type in one place. -/
def retype (a : Argument) : TypePlace → Option DataType → Argument
  | .type, type => { a with type }
  | .originType, type => { a with originType := type }
  | .field i place, type => { a with fields := a.fields.modify i (·.retype place type) }

theorem replaceable_type (place : TypePlace) : Replaceable (typeAt? · place) (retype · place) := by
  induction place with
  | type =>
      rintro ⟨⟩ _ ⟨⟩ type
      exact ⟨rfl, rfl⟩
  | originType =>
      rintro ⟨⟩ _ ⟨⟩ type
      exact ⟨rfl, rfl⟩
  | field i place ih =>
      rintro ⟨⟩ old hold type
      obtain ⟨hnew, hback⟩ := ih.item i hold type
      exact ⟨hnew, by simp only [retype, hback]⟩

theorem follows_readNested (n : Nat) (place : TypePlace) :
    Follows (readNested n) place.path DataType.ofTag? (typeAt? · place) (retype · place) := by
  induction n generalizing place with
  | zero => exact fun _ _ _ _ _ _ _ h => nomatch h
  | succ n ih =>
      cases place with
      | type =>
          have h := Json.Schema.follows_field (s := schema (readNested n)) (f := .type) lawful_layout
            nofun DataType.follows_readLenient
          exact h.map (fun _ => rfl) fun _ _ => rfl
      | originType =>
          have h := Json.Schema.follows_field (s := schema (readNested n)) (f := .originType)
            lawful_layout nofun DataType.follows_readLenient
          exact h.map (fun _ => rfl) fun _ _ => rfl
      | field i place =>
          have h := Json.Schema.follows_field (s := schema (readNested n)) (f := .fields)
            lawful_layout nofun ((ih place).many i)
          exact h.map (fun _ => rfl) fun _ _ => rfl

theorem follows_read (place : TypePlace) :
    Follows read place.path DataType.ofTag? (typeAt? · place) (retype · place) :=
  fun _ _ _ _ hj depth _ ha => follows_readNested depth place hj ha

end Argument

namespace Operand

theorem follows_read : Follows read [layout.step .type] DataType.ofTag? (fun o => some o.type)
    fun o type => { o with type } := by
  have h := Json.Schema.follows_field (s := schema) (f := .type) lawful_layout nofun
    DataType.follows_readLenient
  exact h.map (fun _ => rfl) fun _ _ => rfl

end Operand

namespace Comparison

/-- One of the two operands. -/
inductive Side where
  | first
  | second
deriving DecidableEq, Repr

def Side.path : Side → List Json.Step
  | first => [layout.step .first, Operand.layout.step .type]
  | second => [layout.step .second, Operand.layout.step .type]

def typeAt? (c : Comparison) : Side → Option (Option DataType)
  | .first => c.first.map (·.type)
  | .second => c.second.map (·.type)

def retype (c : Comparison) : Side → Option DataType → Comparison
  | .first, type => { c with first := c.first.map fun o => { o with type } }
  | .second, type => { c with second := c.second.map fun o => { o with type } }

theorem replaceable_type (side : Side) : Replaceable (typeAt? · side) (retype · side) := by
  rintro ⟨compareType, first, second⟩ old hold type
  cases side with
  | first =>
      obtain ⟨o, rfl, rfl⟩ := Option.map_eq_some_iff.mp hold
      exact ⟨rfl, rfl⟩
  | second =>
      obtain ⟨o, rfl, rfl⟩ := Option.map_eq_some_iff.mp hold
      exact ⟨rfl, rfl⟩

theorem follows_read (side : Side) :
    Follows read side.path DataType.ofTag? (typeAt? · side) (retype · side) := by
  cases side with
  | first =>
      have h := Json.Schema.follows_field (s := schema) (f := .first) lawful_layout nofun
        Operand.follows_read.option
      exact h.map (fun _ => Option.map_eq_bind) fun _ _ => rfl
  | second =>
      have h := Json.Schema.follows_field (s := schema) (f := .second) lawful_layout nofun
        Operand.follows_read.option
      exact h.map (fun _ => Option.map_eq_bind) fun _ _ => rfl

end Comparison

namespace ConditionBranch

def typeAt? (b : ConditionBranch) (i : Nat) (side : Comparison.Side) : Option (Option DataType) :=
  b.comparisons[i]?.bind (·.typeAt? side)

def retype (b : ConditionBranch) (i : Nat) (side : Comparison.Side) (type : Option DataType) :
    ConditionBranch :=
  { b with comparisons := b.comparisons.modify i (·.retype side type) }

theorem replaceable_type (i : Nat) (side : Comparison.Side) :
    Replaceable (typeAt? · i side) (retype · i side) := by
  intro b old hold type
  obtain ⟨hnew, hback⟩ := (Comparison.replaceable_type side).item i hold type
  exact ⟨hnew, by simp only [retype, hback]⟩

theorem follows_read (i : Nat) (side : Comparison.Side) :
    Follows read (layout.step .comparisons :: .item i :: side.path) DataType.ofTag?
      (typeAt? · i side) (retype · i side) := by
  have h := Json.Schema.follows_field (s := schema) (f := .comparisons) lawful_layout nofun
    ((Comparison.follows_read side).many i)
  exact h.map (fun _ => rfl) fun _ _ => rfl

end ConditionBranch

namespace NodeConfig

/-- A list of arguments in a configuration. -/
inductive ArgumentList where
  | inputs | outputs | vars | headers | queries | body
deriving DecidableEq, Repr

def ArgumentList.field : ArgumentList → Field
  | inputs => .inputs
  | outputs => .outputs
  | vars => .vars
  | headers => .headers
  | queries => .queries
  | body => .body

def arguments (c : NodeConfig) : ArgumentList → List Argument
  | .inputs => c.inputs
  | .outputs => c.outputs
  | .vars => c.vars
  | .headers => c.headers
  | .queries => c.queries
  | .body => c.body

def withArguments (c : NodeConfig) : ArgumentList → List Argument → NodeConfig
  | .inputs, inputs => { c with inputs }
  | .outputs, outputs => { c with outputs }
  | .vars, vars => { c with vars }
  | .headers, headers => { c with headers }
  | .queries, queries => { c with queries }
  | .body, body => { c with body }

theorem arguments_withArguments (c : NodeConfig) (list : ArgumentList) (args : List Argument) :
    (c.withArguments list args).arguments list = args := by
  cases list <;> rfl

theorem withArguments_withArguments (c : NodeConfig) (list : ArgumentList)
    (args more : List Argument) :
    (c.withArguments list args).withArguments list more = c.withArguments list more := by
  cases list <;> rfl

theorem withArguments_arguments (c : NodeConfig) (list : ArgumentList) :
    c.withArguments list (c.arguments list) = c := by
  cases list <;> rfl

/-- Where a type stands in a configuration: in an argument of one of its lists, or in an operand of a
comparison in a branch. -/
inductive TypePlace where
  | argument (list : ArgumentList) (i : Nat) (place : Argument.TypePlace)
  | operand (branch i : Nat) (side : Comparison.Side)
deriving DecidableEq, Repr

def TypePlace.path : TypePlace → List Json.Step
  | argument list i place => layout.step list.field :: .item i :: place.path
  | operand branch i side =>
      layout.step .conditions :: .item branch ::
        ConditionBranch.layout.step .comparisons :: .item i :: side.path

def typeAt? (c : NodeConfig) : TypePlace → Option (Option DataType)
  | .argument list i place => (c.arguments list)[i]?.bind (·.typeAt? place)
  | .operand branch i side => c.conditions[branch]?.bind (·.typeAt? i side)

def retype (c : NodeConfig) : TypePlace → Option DataType → NodeConfig
  | .argument list i place, type =>
      c.withArguments list ((c.arguments list).modify i (·.retype place type))
  | .operand branch i side, type =>
      { c with conditions := c.conditions.modify branch (·.retype i side type) }

theorem replaceable_type (place : TypePlace) : Replaceable (typeAt? · place) (retype · place) := by
  intro c old hold type
  cases place with
  | argument list i place =>
      obtain ⟨hnew, hback⟩ := (Argument.replaceable_type place).item i hold type
      simp only [typeAt?, retype, arguments_withArguments, withArguments_withArguments]
      exact ⟨hnew, (congrArg (c.withArguments list) hback).trans (withArguments_arguments c list)⟩
  | operand branch i side =>
      obtain ⟨hnew, hback⟩ := (ConditionBranch.replaceable_type i side).item branch hold type
      exact ⟨hnew, by simp only [retype, hback]⟩

theorem follows_field {node : Json.Decoder Node} {f : Field} {path : List Json.Step}
    {get? : f.Value → Option (Option DataType)} {put : f.Value → Option DataType → f.Value}
    (h : Follows ((schema node).read f) path DataType.ofTag? get? put) :
    Follows (schema node).readFields (layout.step f :: path) DataType.ofTag? (fun v => get? (v f))
      fun v type => Function.update v f (put (v f) type) :=
  Json.Schema.follows_field lawful_layout nofun h

/-- A place in the configuration itself, not in a node that is nested in it. -/
theorem follows_readWith (node : Json.Decoder Node) (place : TypePlace) :
    Follows (readWith node) place.path DataType.ofTag? (·.1.typeAt? place)
      fun c type => (c.1.retype place type, c.2) := by
  cases place with
  | argument list i place =>
      have h := (Argument.follows_read place).many i
      cases list with
      | inputs => exact (follows_field (f := .inputs) h).map (fun _ => rfl) fun _ _ => rfl
      | outputs => exact (follows_field (f := .outputs) h).map (fun _ => rfl) fun _ _ => rfl
      | vars => exact (follows_field (f := .vars) h).map (fun _ => rfl) fun _ _ => rfl
      | headers => exact (follows_field (f := .headers) h).map (fun _ => rfl) fun _ _ => rfl
      | queries => exact (follows_field (f := .queries) h).map (fun _ => rfl) fun _ _ => rfl
      | body => exact (follows_field (f := .body) h).map (fun _ => rfl) fun _ _ => rfl
  | operand branch i side =>
      have h := (ConditionBranch.follows_read i side).many branch
      exact (follows_field (f := .conditions) h).map (fun _ => rfl) fun _ _ => rfl

/-- A place in a node that is nested in the configuration. -/
theorem follows_readWith_inner {node : Json.Decoder Node} {path : List Json.Step}
    {get? : Node → Option (Option DataType)} {put : Node → Option DataType → Node}
    (h : Follows node path DataType.ofTag? get? put) (i : Nat) :
    Follows (readWith node) (layout.step .inner :: .item i :: path) DataType.ofTag?
      (fun c => c.2[i]?.bind get?) fun c type => (c.1, c.2.modify i (put · type)) :=
  (follows_field (f := .inner) (h.many i)).map (fun _ => rfl) fun _ _ => rfl

end NodeConfig

namespace Node

/-- Where a type stands in a node: in its configuration, or in a node nested beside or inside it. -/
inductive TypePlace where
  | config (place : NodeConfig.TypePlace)
  | inner (i : Nat) (place : TypePlace)
  | configInner (i : Nat) (place : TypePlace)
deriving DecidableEq, Repr

def TypePlace.path : TypePlace → List Json.Step
  | config place => layout.step .config :: place.path
  | inner i place => layout.step .inner :: .item i :: place.path
  | configInner i place =>
      layout.step .config :: NodeConfig.layout.step .inner :: .item i :: place.path

def typeAt? (n : Node) : TypePlace → Option (Option DataType)
  | .config place => n.config.typeAt? place
  | .inner i place => n.inner[i]?.bind (·.typeAt? place)
  | .configInner i place => n.configInner[i]?.bind (·.typeAt? place)

def retype (n : Node) : TypePlace → Option DataType → Node
  | .config place, type => { n with config := n.config.retype place type }
  | .inner i place, type => { n with inner := n.inner.modify i (·.retype place type) }
  | .configInner i place, type =>
      { n with configInner := n.configInner.modify i (·.retype place type) }

theorem replaceable_type (place : TypePlace) : Replaceable (typeAt? · place) (retype · place) := by
  induction place with
  | config place =>
      rintro ⟨⟩ old hold type
      obtain ⟨hnew, hback⟩ := NodeConfig.replaceable_type place hold type
      exact ⟨hnew, by simp only [retype, hback]⟩
  | inner i place ih =>
      rintro ⟨⟩ old hold type
      obtain ⟨hnew, hback⟩ := ih.item i hold type
      exact ⟨hnew, by simp only [retype, hback]⟩
  | configInner i place ih =>
      rintro ⟨⟩ old hold type
      obtain ⟨hnew, hback⟩ := ih.item i hold type
      exact ⟨hnew, by simp only [retype, hback]⟩

theorem follows_field {node : Json.Decoder Node} {f : Field} {path : List Json.Step}
    {get? : f.Value → Option (Option DataType)} {put : f.Value → Option DataType → f.Value}
    (h : Follows ((schema node).read f) path DataType.ofTag? get? put) :
    Follows (schema node).readFields (layout.step f :: path) DataType.ofTag? (fun v => get? (v f))
      fun v type => Function.update v f (put (v f) type) := by
  have haliases : ∀ key ∈ layout.aliases f, layout.field? key = some f := by
    cases f <;> decide
  exact Json.Schema.follows_field lawful_layout haliases h

theorem follows_readNested (n : Nat) (place : TypePlace) :
    Follows (readNested n) place.path DataType.ofTag? (typeAt? · place) (retype · place) := by
  induction n generalizing place with
  | zero => exact fun _ _ _ _ _ _ _ h => nomatch h
  | succ n ih =>
      cases place with
      | config place =>
          have h := (NodeConfig.follows_readWith (readNested n) place).orElse
            (NodeConfig.ofFields (NodeConfig.schema (readNested n)).empty)
          exact (follows_field (f := .config) h).map (fun _ => rfl) fun _ _ => rfl
      | inner i place =>
          have h := (ih place).many i
          exact (follows_field (f := .inner) h).map (fun _ => rfl) fun _ _ => rfl
      | configInner i place =>
          have h := (NodeConfig.follows_readWith_inner (ih place) i).orElse
            (NodeConfig.ofFields (NodeConfig.schema (readNested n)).empty)
          exact (follows_field (f := .config) h).map (fun _ => rfl) fun _ _ => rfl

theorem follows_read (place : TypePlace) :
    Follows read place.path DataType.ofTag? (typeAt? · place) (retype · place) :=
  fun _ _ _ _ hj depth _ ha => follows_readNested depth place hj ha

end Node

namespace Workflow

/-- Where a type stands in a workflow: in a node, or in a variable that the system provides. -/
inductive TypePlace where
  | node (i : Nat) (place : Node.TypePlace)
  | systemVariable (i : Nat) (place : Argument.TypePlace)
deriving DecidableEq, Repr

def TypePlace.path : TypePlace → List Json.Step
  | node i place => layout.step .nodes :: .item i :: place.path
  | systemVariable i place => layout.step .systemVariables :: .item i :: place.path

def typeAt? (w : Workflow) : TypePlace → Option (Option DataType)
  | .node i place => w.nodes[i]?.bind (·.typeAt? place)
  | .systemVariable i place => w.systemVariables[i]?.bind (·.typeAt? place)

/-- The workflow with another type in one place. -/
def retype (w : Workflow) : TypePlace → Option DataType → Workflow
  | .node i place, type => { w with nodes := w.nodes.modify i (·.retype place type) }
  | .systemVariable i place, type =>
      { w with systemVariables := w.systemVariables.modify i (·.retype place type) }

theorem replaceable_type (place : TypePlace) : Replaceable (typeAt? · place) (retype · place) := by
  intro w old hold type
  cases place with
  | node i place =>
      obtain ⟨hnew, hback⟩ := (Node.replaceable_type place).item i hold type
      exact ⟨hnew, by simp only [retype, hback]⟩
  | systemVariable i place =>
      obtain ⟨hnew, hback⟩ := (Argument.replaceable_type place).item i hold type
      exact ⟨hnew, by simp only [retype, hback]⟩

theorem follows_read (place : TypePlace) :
    Follows read place.path DataType.ofTag? (typeAt? · place) (retype · place) := by
  cases place with
  | node i place =>
      have h := Json.Schema.follows_field (s := schema) (f := .nodes) lawful_layout (by decide)
        ((Node.follows_read place).many i)
      exact h.map (fun _ => rfl) fun _ _ => rfl
  | systemVariable i place =>
      have h := Json.Schema.follows_field (s := schema) (f := .systemVariables) lawful_layout nofun
        ((Argument.follows_read place).many i)
      exact h.map (fun _ => rfl) fun _ _ => rfl

/-- A workflow can be loaded with any text as the tag of a type. It is the same workflow as before, but
for the type in that place, which is the one that the new text stands for, or none if it is no tag. -/
theorem ofDocument_rewritten {d d' : Json.Document} {place : TypePlace} {old new : String}
    {w : Workflow} (hread : ofDocument d = .ok w)
    (hroot : Json.Rewritten old new place.path d.root d'.root) (hrest : d'.trailing = d.trailing) :
    ofDocument d' = .ok (w.retype place (DataType.ofTag? new)) ∧
      w.typeAt? place = some (DataType.ofTag? old) ∧
      (w.retype place (DataType.ofTag? new)).typeAt? place = some (DataType.ofTag? new) ∧
      (w.retype place (DataType.ofTag? new)).retype place (DataType.ofTag? old) = w := by
  obtain ⟨w', hw', hread⟩ := Json.exists_of_bind_eq_ok hread
  obtain ⟨⟨⟩, hended, hread⟩ := Json.exists_of_bind_eq_ok hread
  obtain rfl : w' = w := Except.ok.inj hread
  obtain ⟨hold, hnew⟩ := follows_read place hroot hw'
  refine ⟨?_, hold, replaceable_type place hold (DataType.ofTag? new)⟩
  rw [ofDocument, Json.Document.decode, hnew, hrest]
  simp only [bind, Except.bind, hended]
  rfl

end Workflow

namespace TypePlacesWitness

/-- A node nested in the configuration of a loop has an argument with a field of a certain tag. -/
def document (tag : String) : Json.Document := .ofJson (.object [
  ("nodeList", .array [.object [
    ("id", .nat 1),
    ("type", .text "Loop"),
    ("config", .object [("innerNodes", .array [.object [
      ("id", .nat 2),
      ("type", .text "Code"),
      ("nodeConfig", .object [("outputArgs", .array [.object [
        ("name", .text "rows"),
        ("dataType", .text "Array_"),
        ("subArgs", .array [.object [
          ("dataType", .text tag),
          ("name", .text "cell")]])]])])]])])]])])

def workflow : Workflow where
  nodes := [{
    id := ⟨"1"⟩
    type := .loop
    configInner := [{
      id := ⟨"2"⟩
      type := .code
      config := { outputs := [{
        name := "rows"
        type := some (.array .object)
        fields := [{ name := "cell", type := some .string }] }] } }] }]

def place : Workflow.TypePlace :=
  .node 0 (.configInner 0 (.config (.argument .outputs 0 (.field 0 .type))))

theorem rewritten (old new : String) :
    Json.Rewritten old new place.path (document old).root (document new).root :=
  .member [] [] (by decide) <| .item [] [] <| .member [_, _] [] (by decide) <|
    .member [] [] (by decide) <| .item [] [] <| .member [_, _] [] (by decide) <|
    .member [] [] (by decide) <| .item [] [] <| .member [_, _] [] (by decide) <|
    .item [] [] <| .member [] [_] (by decide) .here

theorem ofDocument_rewritten_field :
    Workflow.ofDocument (document "String") = .ok workflow ∧
      Workflow.ofDocument (document "File_Hologram") = .ok (workflow.retype place none) ∧
      workflow.typeAt? place = some (some .string) ∧
      (workflow.retype place none).typeAt? place = some none := by
  have hread : Workflow.ofDocument (document "String") = .ok workflow := by rfl
  obtain ⟨hnew, hold, hthere, -⟩ :=
    Workflow.ofDocument_rewritten hread (rewritten "String" "File_Hologram") rfl
  exact ⟨hread, hnew, hold, hthere⟩

end TypePlacesWitness

end FlowScope
