import FlowScope.Argument.Basic
import FlowScope.NodeId
import FlowScope.Node.Type
/-!
Nodes, the steps of a workflow. A node names its successors itself: plainly, in the branches of its
configuration, and as the nodes that take over when it fails. The body of a loop may be nested in
the loop's node, in two places.
-/
namespace FlowScope

/-- What happens when a node fails. -/
inductive FailureMode where
  | interrupt
  | specificContent
  | executeFlow
deriving DecidableEq, Repr

/-- The handling of failures, with the nodes that take over. -/
structure FailureHandling where
  mode : Option FailureMode := none
  handlers : List NodeId := []
deriving DecidableEq, Repr

/-- Do the handlers follow the node? A mode that is not set counts as handing over. -/
def FailureHandling.handsOver (h : FailureHandling) : Bool :=
  match h.mode with
  | none | some .executeFlow => true
  | _ => false

/-- Does a node write or read a variable? -/
inductive VariableMode where
  | set
  | get
deriving DecidableEq, Repr

/-- One side of a comparison. -/
structure Operand where
  name : Option String := none
  bindMode : Option BindMode := none
  bindValue : Option String := none
  type : Option DataType := none
deriving DecidableEq, Repr

/-- The token that an operand is bound to. -/
def Operand.reference (o : Operand) : Option String :=
  boundToken o.bindMode o.bindValue

/-- A comparison of two operands. -/
structure Comparison where
  compareType : Option String := none
  first : Option Operand := none
  second : Option Operand := none
deriving DecidableEq, Repr

/-- A branch taken under conditions. -/
structure ConditionBranch where
  branchType : Option String := none
  next : List NodeId := []
  comparisons : List Comparison := []
deriving DecidableEq, Repr

/-- A branch taken on an intent. -/
structure IntentBranch where
  intent : Option String := none
  next : List NodeId := []
deriving DecidableEq, Repr

/-- A branch taken on an answer. -/
structure AnswerBranch where
  content : Option String := none
  next : List NodeId := []
deriving DecidableEq, Repr

/-- The configuration of a node. What its type does not use stays empty. -/
structure NodeConfig where
  inputs : List Argument := []
  outputs : List Argument := []
  vars : List Argument := []
  variableMode : Option VariableMode := none
  failure : Option FailureHandling := none
  conditions : List ConditionBranch := []
  intents : List IntentBranch := []
  answers : List AnswerBranch := []
  headers : List Argument := []
  queries : List Argument := []
  body : List Argument := []
  systemPrompt : Option String := none
  userPrompt : Option String := none
  question : Option String := none
  url : Option String := none
  text : Option String := none
  content : Option String := none
deriving Repr, Inhabited

/-- A step of a workflow. `inner` and `configInner` are the nodes nested beside and inside its
configuration. -/
structure Node where
  id : NodeId
  name : String := ""
  type : NodeType
  next : List NodeId := []
  loop : Option NodeId := none
  config : NodeConfig := {}
  inner : List Node := []
  configInner : List Node := []
  innerStart : Option NodeId := none
  innerEnd : Option NodeId := none
deriving Repr, Inhabited

namespace Node

def isLoop (n : Node) : Bool := n.type == .loop

/-- The nested nodes of both places. -/
def nested (n : Node) : List Node := n.inner ++ n.configInner

/-- The nodes that take over when this one fails. -/
def handlers (n : Node) : List NodeId :=
  match n.config.failure with
  | some handling => if handling.handsOver then handling.handlers else []
  | none => []

/-- The successors in the branches that the type of the node makes use of. -/
def branches (n : Node) : List NodeId :=
  match n.type with
  | .condition => n.config.conditions.flatMap (·.next)
  | .intentRecognition => n.config.intents.flatMap (·.next)
  | .qa => n.config.answers.flatMap (·.next)
  | _ => []

end Node

end FlowScope
