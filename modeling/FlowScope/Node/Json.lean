import FlowScope.Node.Branch
/-!
Nodes as JSON. The nodes nested in a configuration are read and written with it.
-/
namespace FlowScope

open Json (Decoder)

namespace NodeConfig

/-- The fields of a configuration, the nested nodes included. -/
inductive Field where
  | inputs | outputs | vars | variableMode | failure | conditions | intents | answers
  | headers | queries | body | systemPrompt | userPrompt | question | url | text | content | inner
deriving DecidableEq, Repr

/-- The fields in order, with their keys. -/
def layout : Json.Layout Field where
  record := "NodeConfig"
  fields := [
    .inputs, .outputs, .vars, .variableMode, .failure, .conditions, .intents, .answers,
    .headers, .queries, .body, .systemPrompt, .userPrompt, .question, .url, .text, .content,
    .inner]
  key
    | .inputs => "inputArgs"
    | .outputs => "outputArgs"
    | .vars => "variableArgs"
    | .variableMode => "configType"
    | .failure => "exceptionHandleConfig"
    | .conditions => "conditionBranchConfigs"
    | .intents => "intentConfigs"
    | .answers => "options"
    | .headers => "headers"
    | .queries => "queries"
    | .body => "body"
    | .systemPrompt => "systemPrompt"
    | .userPrompt => "userPrompt"
    | .question => "question"
    | .url => "url"
    | .text => "text"
    | .content => "content"
    | .inner => "innerNodes"

/-- What each field holds. -/
abbrev Field.Value : Field → Type
  | .inputs | .outputs | .vars | .headers | .queries | .body => List Argument
  | .variableMode => Option VariableMode
  | .failure => Option FailureHandling
  | .conditions => List ConditionBranch
  | .intents => List IntentBranch
  | .answers => List AnswerBranch
  | .systemPrompt | .userPrompt | .question | .url | .text | .content => Option String
  | .inner => List Node

/-- How the fields are read, given how a nested node is read. -/
def schema (node : Decoder Node) : Json.Schema Field Field.Value where
  toLayout := layout
  read
    | .inputs | .outputs | .vars | .headers | .queries | .body => Argument.readMany
    | .variableMode => Json.readOption VariableMode.read
    | .failure => Json.readOption FailureHandling.read
    | .conditions => Json.orElse [] (Json.readList ConditionBranch.read)
    | .intents => Json.orElse [] (Json.readList IntentBranch.read)
    | .answers => Json.orElse [] (Json.readList AnswerBranch.read)
    | .systemPrompt | .userPrompt | .question | .url | .text | .content => Json.readTextOption
    | .inner => Json.orElse [] (Json.readList node)
  empty
    | .inputs | .outputs | .vars | .headers | .queries | .body => []
    | .variableMode => none
    | .failure => none
    | .conditions => []
    | .intents => []
    | .answers => []
    | .systemPrompt | .userPrompt | .question | .url | .text | .content => none
    | .inner => []

/-- The configuration with these fields, and its nested nodes. -/
def ofFields (v : (f : Field) → f.Value) : NodeConfig × List Node where
  fst := {
    inputs := v .inputs
    outputs := v .outputs
    vars := v .vars
    variableMode := v .variableMode
    failure := v .failure
    conditions := v .conditions
    intents := v .intents
    answers := v .answers
    headers := v .headers
    queries := v .queries
    body := v .body
    systemPrompt := v .systemPrompt
    userPrompt := v .userPrompt
    question := v .question
    url := v .url
    text := v .text
    content := v .content }
  snd := v .inner

def readWith (node : Decoder Node) : Decoder (NodeConfig × List Node) := fun depth j =>
  ((schema node).readFields depth j).map ofFields

/-- A list that has something in it. -/
def unlessEmpty {α : Type} (write : α → Json) : List α → Option Json
  | [] => none
  | as => some (Json.list write as)

/-- What is written for a field, if anything, once the nested nodes are written. -/
def member (c : NodeConfig) (nodes : List Json) : Field → Option Json
  | .inputs => unlessEmpty Argument.toJson c.inputs
  | .outputs => unlessEmpty Argument.toJson c.outputs
  | .vars => unlessEmpty Argument.toJson c.vars
  | .variableMode => c.variableMode.map VariableMode.toJson
  | .failure => c.failure.map FailureHandling.toJson
  | .conditions => unlessEmpty ConditionBranch.toJson c.conditions
  | .intents => unlessEmpty IntentBranch.toJson c.intents
  | .answers => unlessEmpty AnswerBranch.toJson c.answers
  | .headers => unlessEmpty Argument.toJson c.headers
  | .queries => unlessEmpty Argument.toJson c.queries
  | .body => unlessEmpty Argument.toJson c.body
  | .systemPrompt => c.systemPrompt.map .text
  | .userPrompt => c.userPrompt.map .text
  | .question => c.question.map .text
  | .url => c.url.map .text
  | .text => c.text.map .text
  | .content => c.content.map .text
  | .inner => unlessEmpty id nodes

end NodeConfig

namespace Node

inductive Field where
  | id | name | type | next | loop | config | inner | innerStart | innerEnd
deriving DecidableEq, Repr

/-- The fields in order, with their keys. -/
def layout : Json.Layout Field where
  record := "Node"
  fields := [.id, .name, .type, .next, .loop, .config, .inner, .innerStart, .innerEnd]
  key
    | .id => "id"
    | .name => "name"
    | .type => "type"
    | .next => "nextNodeIds"
    | .loop => "loopNodeId"
    | .config => "nodeConfig"
    | .inner => "innerNodes"
    | .innerStart => "innerStartNodeId"
    | .innerEnd => "innerEndNodeId"
  aliases
    | .config => ["config"]
    | _ => []

/-- What each field holds. -/
abbrev Field.Value : Field → Type
  | .id => NodeId
  | .name => String
  | .type => NodeType
  | .next => List NodeId
  | .loop | .innerStart | .innerEnd => Option NodeId
  | .config => NodeConfig × List Node
  | .inner => List Node

/-- How the fields are read, given how a nested node is read. -/
def schema (node : Decoder Node) : Json.Schema Field Field.Value where
  toLayout := layout
  read
    | .id => NodeId.read
    | .name => Json.orElse "" Json.readText
    | .type => NodeType.read
    | .next => NodeId.readMany
    | .loop | .innerStart | .innerEnd => Json.readOption NodeId.read
    | .config => Json.orElse (NodeConfig.ofFields (NodeConfig.schema node).empty)
        (NodeConfig.readWith node)
    | .inner => Json.orElse [] (Json.readList node)
  empty
    | .id => ⟨""⟩
    | .name => ""
    | .type => default
    | .next => []
    | .loop | .innerStart | .innerEnd => none
    | .config => ({}, [])
    | .inner => []
  neededInObject f := f == .id || f == .type

def ofFields (v : (f : Field) → f.Value) : Node where
  id := v .id
  name := v .name
  type := v .type
  next := v .next
  loop := v .loop
  config := (v .config).1
  inner := v .inner
  configInner := (v .config).2
  innerStart := v .innerStart
  innerEnd := v .innerEnd

/-- Read a node with at most so many nodes nested in each other. -/
def readNested : Nat → Decoder Node
  | 0 => fun _ _ => .error (.fault .tooDeep)
  | n + 1 => fun depth j => ((schema (readNested n)).readFields depth j).map ofFields

/-- Read a node. Every nested node is at least one level deeper, so the limit on levels also bounds
the nesting. -/
def read : Decoder Node := fun depth => readNested depth depth

/-- What is written for a field, if anything, once the nested nodes are written. -/
def member (n : Node) (inner configInner : List Json) : Field → Option Json
  | .id => some n.id.toJson
  | .name => some (.text n.name)
  | .type => some n.type.toJson
  | .next => NodeConfig.unlessEmpty NodeId.toJson n.next
  | .loop => n.loop.map NodeId.toJson
  | .config => some (NodeConfig.layout.write (n.config.member configInner))
  | .inner => NodeConfig.unlessEmpty (fun j => j) inner
  | .innerStart => n.innerStart.map NodeId.toJson
  | .innerEnd => n.innerEnd.map NodeId.toJson

mutual

def toJson : Node → Json
  | n@⟨_, _, _, _, _, _, inner, configInner, _, _⟩ =>
      layout.write (n.member (listToJson inner) (listToJson configInner))

def listToJson : List Node → List Json
  | [] => []
  | n :: rest => n.toJson :: listToJson rest

end

theorem listToJson_eq_map (ns : List Node) : listToJson ns = ns.map toJson := by
  induction ns with
  | nil => simp [listToJson]
  | cons n rest ih => simp [listToJson, ih]

def configToJson (n : Node) : Json :=
  NodeConfig.layout.write (n.config.member (listToJson n.configInner))

end Node

end FlowScope
