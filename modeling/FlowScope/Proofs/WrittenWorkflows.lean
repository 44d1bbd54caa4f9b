import FlowScope.Proofs.ReadBack
import FlowScope.Proofs.TidyWorkflows
import FlowScope.Proofs.TypeTags
/-!
Workflows as documents, there and back. What is written for a tidy workflow is read as that workflow,
however the members of its objects are ordered and however deep its nodes and arguments are nested. As
reading yields tidy workflows only, every workflow that has been read survives.
-/
namespace FlowScope

open Json (ReadsBack Restored)

namespace DataType

theorem all_isBlank_tag_scalar (kind : ScalarKind) : kind.tag.toList.all Text.isBlank = false := by
  cases kind with
  | file k => cases k <;> decide
  | _ => decide

theorem toList_tag_array (element : DataType) :
    (array element).tag.toList = 'A' :: 'r' :: 'r' :: 'a' :: 'y' :: '_' :: element.tag.toList := by
  rw [tag, String.toList_append]
  rfl

theorem isAllBlank_tag (type : DataType) : Text.isAllBlank type.tag = false := by
  cases type with
  | scalar kind => exact all_isBlank_tag_scalar kind
  | array element =>
      rw [Text.isAllBlank, toList_tag_array]
      rfl
  | object => decide

theorem lenient_tag (type : DataType) : lenient type.tag = some type := by
  rw [lenient, isAllBlank_tag, ofTag?, ofTag_tag]
  rfl

theorem readsBack_toJson (type : DataType) : ReadsBack readLenient type.toJson (some type) :=
  Json.readsBack_text fun _ => congrArg Except.ok (lenient_tag type)

theorem readsBack_orNull (type? : Option DataType) :
    ReadsBack readLenient (Json.orNull toJson type?) type? := by
  cases type? with
  | none =>
      intro depth j' hj' _
      rw [Json.eq_null_of_sorted_eq hj']
      rfl
  | some type => exact readsBack_toJson type

theorem restored_map (type? : Option DataType) :
    Restored readLenient none (type?.map toJson) type? := by
  cases type? with
  | none => rfl
  | some type => exact readsBack_toJson type

end DataType

theorem Json.restored_text_option (text? : Option String) :
    Restored readTextOption none (text?.map Json.text) text? :=
  restored_map nofun fun _ _ => readsBack_text fun _ => rfl

theorem Json.readsBack_text_orNull (text? : Option String) :
    ReadsBack readTextOption (orNull Json.text text?) text? :=
  readsBack_orNull nofun fun _ _ => readsBack_text fun _ => rfl

/-- A list that may be `null` is read back when every value in it is. -/
theorem Json.readsBack_many {α : Type} {read : Decoder α} {write : α → Json} {as : List α}
    (h : ∀ a ∈ as, ReadsBack read (write a) a) :
    ReadsBack (orElse [] (readList read)) (list write as) as :=
  (readsBack_list h).orElse nofun []

/-- The same where an empty list is not written at all. -/
theorem NodeConfig.restored_unlessEmpty {α : Type} {read : Json.Decoder α} {write : α → Json}
    {as : List α} (h : ∀ a ∈ as, ReadsBack read (write a) a) :
    Restored (Json.orElse [] (Json.readList read)) [] (unlessEmpty write as) as := by
  cases as with
  | nil => rfl
  | cons a rest => exact Json.readsBack_many h

theorem NodeConfig.unlessEmpty_map {α : Type} (write : α → Json) (as : List α) :
    unlessEmpty (fun j => j) (as.map write) = unlessEmpty write as := by
  cases as with
  | nil => rfl
  | cons a rest => simp [unlessEmpty, Json.list, Function.comp_def]

theorem BindMode.readsBack_toJson (mode : BindMode) : ReadsBack read mode.toJson mode :=
  Json.readsBack_variant (by cases mode <;> decide)

namespace Argument

theorem lawful_layout : layout.Lawful := ⟨by decide, by rintro ⟨⟩ <;> decide, by rintro ⟨⟩ <;> decide⟩

/-- The fields of an argument. -/
def values (a : Argument) : (f : Field) → f.Value
  | .name => a.name
  | .type => a.type
  | .description => a.description
  | .required => a.required
  | .system => a.system
  | .bindMode => a.bindMode
  | .bindValue => a.bindValue
  | .fields => a.fields
  | .originType => a.originType

theorem ofFields_values (a : Argument) : ofFields a.values = a := by
  cases a
  rfl

theorem toJson_eq_write (a : Argument) : a.toJson = layout.write (a.member (a.fields.map toJson)) := by
  obtain ⟨name, type, description, required, system, bindMode, bindValue, fields, originType⟩ := a
  rw [toJson, listToJson_eq_map]

theorem depth_lt_of_mem_fields {a b : Argument} (hb : b ∈ a.fields) :
    b.toJson.depth < a.toJson.depth := by
  have hlist : a.member (a.fields.map toJson) .fields = some (.array (a.fields.map toJson)) :=
    if_neg (by simpa using List.ne_nil_of_mem hb)
  rw [toJson_eq_write a]
  exact Nat.lt_trans (Json.depth_lt_array (List.mem_map_of_mem hb))
    (Json.Layout.depth_lt_write (lawful_layout.mem_fields .fields) hlist)

theorem restored_member {inner : Json.Decoder Argument} {a : Argument}
    (hinner : ∀ b ∈ a.fields, ReadsBack inner b.toJson b) (f : Field) :
    Restored ((schema inner).read f) ((schema inner).empty f) (a.member (a.fields.map toJson) f)
      (a.values f) := by
  cases f with
  | name => exact Json.readsBack_text fun _ => rfl
  | type => exact DataType.readsBack_orNull a.type
  | description => exact Json.restored_text_option a.description
  | required => exact (Json.readsBack_bool a.required).orElse nofun false
  | system => exact (Json.readsBack_bool a.system).orElse nofun false
  | bindMode => exact Json.restored_map nofun fun mode _ => mode.readsBack_toJson
  | bindValue => exact Json.restored_text_option a.bindValue
  | fields =>
      obtain ⟨name, type, description, required, system, bindMode, bindValue, fields, originType⟩ := a
      cases fields with
      | nil => rfl
      | cons b rest => exact Json.readsBack_many hinner
  | originType => exact DataType.restored_map a.originType

/-- An argument is read back where the decoder may go as deep as it is nested. -/
theorem readsBack_readNested (n : Nat) :
    ∀ a : Argument, a.toJson.depth < n → ReadsBack (readNested n) a.toJson a := by
  induction n with
  | zero => exact fun a h => absurd h (Nat.not_lt_zero _)
  | succ n ih =>
      intro a hdepth
      have hinner : ∀ b ∈ a.fields, ReadsBack (readNested n) b.toJson b := fun b hb =>
        ih b (Nat.lt_of_lt_of_le (depth_lt_of_mem_fields hb) (Nat.le_of_lt_succ hdepth))
      have hneeded : ∀ f, (schema (readNested n)).neededInObject f = true →
          (a.member (a.fields.map toJson) f).isSome = true := by
        intro f hf
        obtain rfl : f = .name := by simpa [schema] using hf
        rfl
      rw [toJson_eq_write]
      exact Json.Schema.readsBack_write_map (s := schema (readNested n)) lawful_layout a.values
        (ofFields_values a) (restored_member hinner) hneeded

theorem readsBack_toJson (a : Argument) : ReadsBack read a.toJson a :=
  fun depth j hj hdepth => readsBack_readNested depth a hdepth depth j hj hdepth

theorem restored_many (as : List Argument) :
    Restored readMany [] (NodeConfig.unlessEmpty toJson as) as :=
  NodeConfig.restored_unlessEmpty fun a _ => a.readsBack_toJson

end Argument

/-- A trimmed identifier is read back. -/
theorem NodeId.Trimmed.readsBack_toJson {id : NodeId} (h : id.Trimmed) :
    ReadsBack NodeId.read id.toJson id :=
  Json.readsBack_text fun depth => by
    rw [NodeId.Trimmed] at h
    simp [NodeId.read, Json.text, Json.readFault?, h]

theorem NodeId.AllTrimmed.readsBack_manyToJson {ids : List NodeId} (h : NodeId.AllTrimmed ids) :
    ReadsBack NodeId.readMany (NodeId.manyToJson ids) ids :=
  Json.readsBack_many fun id hid => (h id hid).readsBack_toJson

theorem NodeId.restored_map {id? : Option NodeId} (h : ∀ id ∈ id?, id.Trimmed) :
    Restored (Json.readOption NodeId.read) none (id?.map NodeId.toJson) id? :=
  Json.restored_map nofun fun id hid => (h id hid).readsBack_toJson

theorem NodeType.readsBack_toJson (type : NodeType) : ReadsBack read type.toJson type :=
  Json.readsBack_variant (by cases type <;> decide)

theorem FailureMode.readsBack_toJson (mode : FailureMode) : ReadsBack read mode.toJson mode :=
  Json.readsBack_variant (by cases mode <;> decide)

theorem VariableMode.readsBack_toJson (mode : VariableMode) : ReadsBack read mode.toJson mode :=
  Json.readsBack_variant (by cases mode <;> decide)

namespace FailureHandling

theorem lawful_layout : layout.Lawful := ⟨by decide, by rintro ⟨⟩ <;> decide, by rintro ⟨⟩ <;> decide⟩

def values (h : FailureHandling) : (f : Field) → f.Value
  | .mode => h.mode
  | .handlers => h.handlers

theorem readsBack_toJson {h : FailureHandling} (htrimmed : NodeId.AllTrimmed h.handlers) :
    ReadsBack read h.toJson h := by
  refine Json.Schema.readsBack_write_map (s := schema) lawful_layout h.values rfl (fun f => ?_) nofun
  cases f with
  | mode => exact Json.readsBack_orNull nofun fun mode _ => mode.readsBack_toJson
  | handlers => exact htrimmed.readsBack_manyToJson

end FailureHandling

namespace Operand

theorem lawful_layout : layout.Lawful := ⟨by decide, by rintro ⟨⟩ <;> decide, by rintro ⟨⟩ <;> decide⟩

def values (o : Operand) : (f : Field) → f.Value
  | .name => o.name
  | .bindMode => o.bindMode
  | .bindValue => o.bindValue
  | .type => o.type

theorem readsBack_toJson (o : Operand) : ReadsBack read o.toJson o := by
  refine Json.Schema.readsBack_write_map (s := schema) lawful_layout o.values rfl (fun f => ?_) nofun
  cases f with
  | name => exact Json.readsBack_text_orNull o.name
  | bindMode => exact Json.readsBack_orNull nofun fun mode _ => mode.readsBack_toJson
  | bindValue => exact Json.readsBack_text_orNull o.bindValue
  | type => exact DataType.readsBack_orNull o.type

end Operand

namespace Comparison

theorem lawful_layout : layout.Lawful := ⟨by decide, by rintro ⟨⟩ <;> decide, by rintro ⟨⟩ <;> decide⟩

def values (c : Comparison) : (f : Field) → f.Value
  | .compareType => c.compareType
  | .first => c.first
  | .second => c.second

theorem readsBack_toJson (c : Comparison) : ReadsBack read c.toJson c := by
  refine Json.Schema.readsBack_write_map (s := schema) lawful_layout c.values rfl (fun f => ?_) nofun
  cases f with
  | compareType => exact Json.readsBack_text_orNull c.compareType
  | first => exact Json.readsBack_orNull nofun fun o _ => o.readsBack_toJson
  | second => exact Json.readsBack_orNull nofun fun o _ => o.readsBack_toJson

end Comparison

namespace ConditionBranch

theorem lawful_layout : layout.Lawful := ⟨by decide, by rintro ⟨⟩ <;> decide, by rintro ⟨⟩ <;> decide⟩

def values (b : ConditionBranch) : (f : Field) → f.Value
  | .branchType => b.branchType
  | .next => b.next
  | .comparisons => b.comparisons

theorem readsBack_toJson {b : ConditionBranch} (htrimmed : NodeId.AllTrimmed b.next) :
    ReadsBack read b.toJson b := by
  refine Json.Schema.readsBack_write_map (s := schema) lawful_layout b.values rfl (fun f => ?_) nofun
  cases f with
  | branchType => exact Json.readsBack_text_orNull b.branchType
  | next => exact htrimmed.readsBack_manyToJson
  | comparisons => exact Json.readsBack_many fun c _ => c.readsBack_toJson

end ConditionBranch

namespace IntentBranch

theorem lawful_layout : layout.Lawful := ⟨by decide, by rintro ⟨⟩ <;> decide, by rintro ⟨⟩ <;> decide⟩

def values (b : IntentBranch) : (f : Field) → f.Value
  | .intent => b.intent
  | .next => b.next

theorem readsBack_toJson {b : IntentBranch} (htrimmed : NodeId.AllTrimmed b.next) :
    ReadsBack read b.toJson b := by
  refine Json.Schema.readsBack_write_map (s := schema) lawful_layout b.values rfl (fun f => ?_) nofun
  cases f with
  | intent => exact Json.readsBack_text_orNull b.intent
  | next => exact htrimmed.readsBack_manyToJson

end IntentBranch

namespace AnswerBranch

theorem lawful_layout : layout.Lawful := ⟨by decide, by rintro ⟨⟩ <;> decide, by rintro ⟨⟩ <;> decide⟩

def values (b : AnswerBranch) : (f : Field) → f.Value
  | .content => b.content
  | .next => b.next

theorem readsBack_toJson {b : AnswerBranch} (htrimmed : NodeId.AllTrimmed b.next) :
    ReadsBack read b.toJson b := by
  refine Json.Schema.readsBack_write_map (s := schema) lawful_layout b.values rfl (fun f => ?_) nofun
  cases f with
  | content => exact Json.readsBack_text_orNull b.content
  | next => exact htrimmed.readsBack_manyToJson

end AnswerBranch

namespace NodeConfig

theorem lawful_layout : layout.Lawful := ⟨by decide, by rintro ⟨⟩ <;> decide, by rintro ⟨⟩ <;> decide⟩

/-- The fields of a configuration, the nested nodes included. -/
def values (c : NodeConfig) (nodes : List Node) : (f : Field) → f.Value
  | .inputs => c.inputs
  | .outputs => c.outputs
  | .vars => c.vars
  | .variableMode => c.variableMode
  | .failure => c.failure
  | .conditions => c.conditions
  | .intents => c.intents
  | .answers => c.answers
  | .headers => c.headers
  | .queries => c.queries
  | .body => c.body
  | .systemPrompt => c.systemPrompt
  | .userPrompt => c.userPrompt
  | .question => c.question
  | .url => c.url
  | .text => c.text
  | .content => c.content
  | .inner => nodes

theorem restored_member {node : Json.Decoder Node} {c : NodeConfig} (hc : c.Tidy) {nodes : List Node}
    (hnodes : ∀ m ∈ nodes, ReadsBack node m.toJson m) (f : Field) :
    Restored ((schema node).read f) ((schema node).empty f) (c.member (nodes.map Node.toJson) f)
      (c.values nodes f) := by
  cases f with
  | inputs => exact Argument.restored_many c.inputs
  | outputs => exact Argument.restored_many c.outputs
  | vars => exact Argument.restored_many c.vars
  | variableMode => exact Json.restored_map nofun fun mode _ => mode.readsBack_toJson
  | failure => exact Json.restored_map nofun fun h hh =>
      FailureHandling.readsBack_toJson (hc.failure h hh)
  | conditions => exact restored_unlessEmpty fun b hb =>
      ConditionBranch.readsBack_toJson (hc.conditions b hb)
  | intents => exact restored_unlessEmpty fun b hb => IntentBranch.readsBack_toJson (hc.intents b hb)
  | answers => exact restored_unlessEmpty fun b hb => AnswerBranch.readsBack_toJson (hc.answers b hb)
  | headers => exact Argument.restored_many c.headers
  | queries => exact Argument.restored_many c.queries
  | body => exact Argument.restored_many c.body
  | systemPrompt => exact Json.restored_text_option c.systemPrompt
  | userPrompt => exact Json.restored_text_option c.userPrompt
  | question => exact Json.restored_text_option c.question
  | url => exact Json.restored_text_option c.url
  | text => exact Json.restored_text_option c.text
  | content => exact Json.restored_text_option c.content
  | inner =>
      have hlist := restored_unlessEmpty hnodes
      rwa [← unlessEmpty_map] at hlist

theorem readsBack_write {node : Json.Decoder Node} {c : NodeConfig} (hc : c.Tidy) {nodes : List Node}
    (hnodes : ∀ m ∈ nodes, ReadsBack node m.toJson m) :
    ReadsBack (readWith node) (layout.write (c.member (nodes.map Node.toJson))) (c, nodes) :=
  Json.Schema.readsBack_write_map (s := schema node) lawful_layout (c.values nodes) rfl
    (restored_member hc hnodes) nofun

end NodeConfig

namespace Node

theorem lawful_layout : layout.Lawful := ⟨by decide, by rintro ⟨⟩ <;> decide, by rintro ⟨⟩ <;> decide⟩

/-- The fields of a node, with the nodes nested in its configuration. -/
def values (n : Node) : (f : Field) → f.Value
  | .id => n.id
  | .name => n.name
  | .type => n.type
  | .next => n.next
  | .loop => n.loop
  | .config => (n.config, n.configInner)
  | .inner => n.inner
  | .innerStart => n.innerStart
  | .innerEnd => n.innerEnd

theorem ofFields_values (n : Node) : ofFields n.values = n := by
  cases n
  rfl

theorem toJson_eq_write (n : Node) :
    n.toJson = layout.write (n.member (n.inner.map toJson) (n.configInner.map toJson)) := by
  obtain ⟨id, name, type, next, loop, config, inner, configInner, first, last⟩ := n
  rw [toJson, listToJson_eq_map, listToJson_eq_map]

theorem depth_lt_unlessEmpty {m : Node} {nodes : List Node} (hm : m ∈ nodes) :
    ∃ j, NodeConfig.unlessEmpty (fun j => j) (nodes.map toJson) = some j ∧
      m.toJson.depth < j.depth := by
  rw [NodeConfig.unlessEmpty_map]
  cases nodes with
  | nil => exact absurd hm List.not_mem_nil
  | cons n rest => exact ⟨_, rfl, Json.depth_lt_array (List.mem_map_of_mem hm)⟩

theorem depth_lt_of_mem_inner {n m : Node} (hm : m ∈ n.inner) : m.toJson.depth < n.toJson.depth := by
  obtain ⟨j, hj, hlt⟩ := depth_lt_unlessEmpty hm
  rw [toJson_eq_write n]
  exact Nat.lt_trans hlt (Json.Layout.depth_lt_write (lawful_layout.mem_fields .inner) hj)

theorem depth_lt_of_mem_configInner {n m : Node} (hm : m ∈ n.configInner) :
    m.toJson.depth < n.toJson.depth := by
  obtain ⟨j, hj, hlt⟩ := depth_lt_unlessEmpty hm
  have hconfig : j.depth <
      (NodeConfig.layout.write (n.config.member (n.configInner.map toJson))).depth :=
    Json.Layout.depth_lt_write (NodeConfig.lawful_layout.mem_fields .inner) hj
  rw [toJson_eq_write n]
  exact Nat.lt_trans (Nat.lt_trans hlt hconfig)
    (Json.Layout.depth_lt_write (lawful_layout.mem_fields .config) rfl)

theorem restored_member {node : Json.Decoder Node} {n : Node} (hn : n.Tidy)
    (hinner : ∀ m ∈ n.nested, ReadsBack node m.toJson m) (f : Field) :
    Restored ((schema node).read f) ((schema node).empty f)
      (n.member (n.inner.map toJson) (n.configInner.map toJson) f) (n.values f) := by
  obtain ⟨hid, hnext, hloop, hstart, hend, hconfig, -, -⟩ := hn
  cases f with
  | id => exact hid.readsBack_toJson
  | name =>
      have htext : ReadsBack Json.readText (.text n.name) n.name := Json.readsBack_text fun _ => rfl
      exact htext.orElse nofun ""
  | type => exact n.type.readsBack_toJson
  | next => exact NodeConfig.restored_unlessEmpty fun id h => (hnext id h).readsBack_toJson
  | loop => exact NodeId.restored_map hloop
  | config => exact (NodeConfig.readsBack_write hconfig fun m hm =>
      hinner m (List.mem_append_right _ hm)).orElse nofun _
  | inner =>
      have hlist := NodeConfig.restored_unlessEmpty fun m hm => hinner m (List.mem_append_left _ hm)
      rwa [← NodeConfig.unlessEmpty_map] at hlist
  | innerStart => exact NodeId.restored_map hstart
  | innerEnd => exact NodeId.restored_map hend

/-- A tidy node is read back where the decoder may go as deep as it is nested. -/
theorem readsBack_readNested (k : Nat) :
    ∀ n : Node, n.Tidy → n.toJson.depth < k → ReadsBack (readNested k) n.toJson n := by
  induction k with
  | zero => exact fun n _ h => absurd h (Nat.not_lt_zero _)
  | succ k ih =>
      intro n hn hdepth
      have hinner : ∀ m ∈ n.nested, ReadsBack (readNested k) m.toJson m := by
        intro m hm
        obtain ⟨-, -, -, -, -, -, hinner, hconfigInner⟩ := hn
        rcases List.mem_append.mp hm with hm | hm
        · exact ih m (hinner m hm)
            (Nat.lt_of_lt_of_le (depth_lt_of_mem_inner hm) (Nat.le_of_lt_succ hdepth))
        · exact ih m (hconfigInner m hm)
            (Nat.lt_of_lt_of_le (depth_lt_of_mem_configInner hm) (Nat.le_of_lt_succ hdepth))
      have hneeded : ∀ f, (schema (readNested k)).neededInObject f = true →
          (n.member (n.inner.map toJson) (n.configInner.map toJson) f).isSome = true := by
        intro f hf
        obtain rfl | rfl : f = .id ∨ f = .type := by simpa [schema] using hf
        · rfl
        · rfl
      rw [toJson_eq_write]
      exact Json.Schema.readsBack_write_map (s := schema (readNested k)) lawful_layout n.values
        (ofFields_values n) (restored_member hn hinner) hneeded

theorem Tidy.readsBack_toJson {n : Node} (hn : n.Tidy) : ReadsBack Node.read n.toJson n :=
  fun depth j hj hdepth => readsBack_readNested depth n hn hdepth depth j hj hdepth

end Node

namespace Edge

theorem lawful_layout : layout.Lawful := ⟨by decide, by rintro ⟨⟩ <;> decide, by rintro ⟨⟩ <;> decide⟩

/-- The fields of an edge. Its kind is none. -/
def values (e : Edge) : Field → NodeId
  | .source => e.source
  | .target => e.target

/-- The kind of an edge is written but not read, which does not matter for a supplemental one. -/
theorem Tidy.readsBack_toJson {e : Edge} (he : e.Tidy) : ReadsBack Edge.read e.toJson e := by
  have hkeys : ["source", "target", "kind"].Nodup := by decide
  have hfields : ReadsBack schema.readFields e.toJson e.values := by
    refine Json.Schema.readsBack_object lawful_layout hkeys ?_ fun f hmissing => ?_
    · simp only [List.forall_mem_cons]
      refine ⟨Or.inl ⟨.source, rfl, he.source.readsBack_toJson⟩,
        Or.inl ⟨.target, rfl, he.target.readsBack_toJson⟩, Or.inr ⟨by decide, _, rfl⟩, by simp⟩
    · have hthere : schema.key f ∈ ["source", "target", "kind"] := by cases f <;> decide
      exact absurd hthere hmissing
  obtain ⟨source, target, kind⟩ := e
  obtain rfl : kind = .supplemental := he.kind
  exact hfields.map fun v : Field → NodeId => (⟨v .source, v .target, .supplemental⟩ : Edge)

end Edge

namespace Workflow

theorem lawful_layout : layout.Lawful := ⟨by decide, by rintro ⟨⟩ <;> decide, by rintro ⟨⟩ <;> decide⟩

def values (w : Workflow) : (f : Field) → f.Value
  | .nodes => w.nodes
  | .edges => w.edges
  | .systemVariables => w.systemVariables

/-- A tidy workflow is read back from what is written for it. -/
theorem Tidy.readsBack_toJson {w : Workflow} (hw : w.Tidy) : ReadsBack Workflow.read w.toJson w := by
  refine Json.Schema.readsBack_write_map (s := schema) lawful_layout w.values rfl (fun f => ?_) nofun
  cases f with
  | nodes => exact Json.readsBack_many fun n hn => (hw.nodes n hn).readsBack_toJson
  | edges => exact NodeConfig.restored_unlessEmpty fun e he => (hw.edges e he).readsBack_toJson
  | systemVariables => exact Argument.restored_many w.systemVariables

/-- Whatever document a workflow has been read from, what is written for it is read as this workflow
again: with the members of the objects in any order, and by every decoder that may enter as many arrays
and objects as are nested in it. -/
theorem read_eq_ok_of_ofDocument {d : Json.Document} {w : Workflow} (h : ofDocument d = .ok w)
    {depth : Nat} {j : Json} (hj : j.sorted = w.toJson.sorted) (hdepth : w.toJson.depth < depth) :
    read depth j = .ok w :=
  (tidy_of_ofDocument h).readsBack_toJson depth j hj hdepth

end Workflow

namespace WrittenWorkflowsWitness

/-- The members of a document in which a loop has an argument of an unknown type with a field, and an
inner node that is written as a list. -/
def loopMembers : List (String × Json) := [
  ("type", .text "Loop"),
  ("id", .text " 1 "),
  ("name", .null),
  ("config", .object [("inputArgs", .array [.object [
    ("name", .text "rows"), ("dataType", .text "Matrix"), ("required", .bool true),
    ("subArgs", .array [.object [("name", .text "cell"), ("dataType", .text "Array_Integer")]])]])]),
  ("innerNodes", .array [.array [.nat 2, .text "inner", .text "Code", .null, .nat 1]])]

/-- A document with the other name of a list, an unknown member, and an edge between numbers. -/
def document : Json.Document := .ofJson (.object [
  ("version", .nat 3),
  ("nodeList", .array [.object loopMembers]),
  ("edges", .array [.array [.nat 1, .text "2\n"]]),
  ("systemVariables", .null)])

def workflow : Workflow where
  nodes := [{
    id := ⟨"1"⟩
    type := .loop
    config := { inputs := [{
      name := "rows"
      required := true
      fields := [{ name := "cell", type := some (.array (.scalar .integer)) }] }] }
    inner := [{ id := ⟨"2"⟩, name := "inner", type := .code, loop := some ⟨"1"⟩ }] }]
  edges := [⟨⟨"1"⟩, ⟨"2"⟩, .supplemental⟩]

theorem workflow_read_again :
    Workflow.ofDocument document = .ok workflow ∧ workflow.toJson.depth < 128 ∧
      Workflow.read 128 workflow.toJson = .ok workflow := by
  have hread : Workflow.ofDocument document = .ok workflow := by rfl
  have hdepth : workflow.toJson.depth < 128 := by decide
  exact ⟨hread, hdepth, Workflow.read_eq_ok_of_ofDocument hread rfl hdepth⟩

end WrittenWorkflowsWitness

end FlowScope
