import FlowScope.Template
import FlowScope.Token
import FlowScope.Workflow.Index
/-!
The references that a node holds: arguments bound to tokens, operands of conditions bound to
tokens, and tokens in free texts. The type of the node tells which lists of arguments count; free
texts count for every type.
-/
namespace FlowScope

/-- A field of a node and the token in it. -/
structure FieldReference where
  field : String
  token : String
deriving DecidableEq, Repr

/-- The lists of arguments that may hold references. -/
inductive ArgumentField where
  | inputs | vars | headers | queries | body
deriving DecidableEq, Repr

namespace ArgumentField

def name : ArgumentField → String
  | inputs => "inputArgs"
  | vars => "variableArgs"
  | headers => "headers"
  | queries => "queries"
  | body => "body"

def arguments (c : NodeConfig) : ArgumentField → List Argument
  | inputs => c.inputs
  | .vars => c.vars
  | headers => c.headers
  | queries => c.queries
  | body => c.body

/-- The lists that count for a type of nodes. -/
def ofType : NodeType → List ArgumentField
  | .httpRequest => [inputs, headers, queries, body]
  | .loop | .variableAccess => [inputs, .vars]
  | _ => [inputs]

end ArgumentField

/-- The free texts. -/
inductive TextField where
  | systemPrompt | userPrompt | question | url | text | content
deriving DecidableEq, Repr

namespace TextField

/-- Every free text, in order. -/
def all : List TextField := [systemPrompt, userPrompt, question, url, text, content]

def name : TextField → String
  | systemPrompt => "systemPrompt"
  | userPrompt => "userPrompt"
  | question => "question"
  | url => "url"
  | text => "text"
  | content => "content"

def value (c : NodeConfig) : TextField → Option String
  | systemPrompt => c.systemPrompt
  | userPrompt => c.userPrompt
  | question => c.question
  | url => c.url
  | text => c.text
  | content => c.content

end TextField

/-- Do the operands of conditions count for a type of nodes? -/
def NodeType.hasConditions : NodeType → Bool
  | .condition => true
  | _ => false

namespace FieldReference

/-- The node that the token leads to, if it is a token. -/
def source (r : FieldReference) : Option NodeId := (Token.parse? r.token).map (·.node)

/-- Does the token lead to the node? -/
def pointsAt (r : FieldReference) (node : NodeId) : Bool := r.source == some node

def toJson (r : FieldReference) : Json := .object [
  ("field", .text r.field), ("token", .text r.token)]

def numbered (name : String) (i : Nat) : String := name ++ "[" ++ toString i ++ "]"

def ofArguments (c : NodeConfig) (f : ArgumentField) : List FieldReference :=
  ((f.arguments c).mapIdx fun i a =>
    a.reference.map fun token => ⟨numbered f.name i ++ "." ++ a.name, token⟩).reduceOption

/-- The references of the two operands of a comparison. -/
def ofComparison (field : String) (c : Comparison) : List FieldReference :=
  [c.first.bind Operand.reference |>.map fun token => ⟨field ++ ".firstArg", token⟩,
    c.second.bind Operand.reference |>.map fun token => ⟨field ++ ".secondArg", token⟩].reduceOption

def ofConditions (c : NodeConfig) : List FieldReference :=
  (c.conditions.mapIdx fun i branch =>
    (branch.comparisons.mapIdx fun j comparison =>
      ofComparison (numbered "conditionBranchConfigs" i ++ numbered ".conditionArgs" j)
        comparison).flatten).flatten

/-- The tokens in a free text. -/
def ofText (c : NodeConfig) (f : TextField) : List FieldReference :=
  match f.value c with
  | none => []
  | some s => (Template.tokens s).map (⟨f.name, ·⟩)

end FieldReference

def Node.references (n : Node) : List FieldReference :=
  (ArgumentField.ofType n.type).flatMap (FieldReference.ofArguments n.config) ++
    (if n.type.hasConditions then FieldReference.ofConditions n.config else []) ++
    TextField.all.flatMap (FieldReference.ofText n.config)

def Node.referencesTo (n : Node) (source : NodeId) : List FieldReference :=
  n.references.filter (·.pointsAt source)

/-- A node with some of its references. -/
structure NodeReferences where
  node : NodeId
  name : String
  references : List FieldReference
deriving DecidableEq, Repr

/-- The nodes for which `pick` finds references. -/
def Index.pickReferences (ix : Index) (pick : Nat → List FieldReference) : List NodeReferences :=
  ix.positions.filterMap fun i =>
    match pick i with
    | [] => none
    | references => some ⟨(ix.nodeAt i).id, (ix.nodeAt i).name, references⟩

def Workflow.dependents (w : Workflow) (source : NodeId) : List NodeReferences :=
  let ix := w.index
  ix.pickReferences fun i => (ix.nodeAt i).referencesTo source

/-- A node and its references as JSON, under the given key. -/
def NodeReferences.toJson (key : String) (r : NodeReferences) : Json := .object [
  ("nodeId", r.node.toJson),
  ("nodeName", .text r.name),
  (key, Json.list FieldReference.toJson r.references)]

end FlowScope
