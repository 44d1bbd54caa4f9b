import FlowScope.Scope.Basic
/-!
The scope of a node as a choice of variables, grouped by the nodes that expose them.
-/
namespace FlowScope

/-- A variable to choose. -/
structure PickerVariable where
  key : String
  name : String
  type : String
deriving DecidableEq, Repr

/-- The variables of one node. -/
structure PickerGroup where
  node : NodeId
  name : String
  type : NodeType
  vars : List PickerVariable
deriving DecidableEq, Repr

/-- An argument of a node as a variable. One without a type counts as a text. -/
def PickerVariable.ofArgument (node : NodeId) (a : Argument) : PickerVariable where
  key := Token.key node a.name
  name := a.name
  type := (a.type.getD .string).tag

def PickerGroup.ofNode (n : ScopeNode) : PickerGroup where
  node := n.id
  name := n.name
  type := n.type
  vars := n.arguments.map (PickerVariable.ofArgument n.id)

/-- The choice that a scope offers. -/
def Scope.picker (s : Scope) : List PickerGroup :=
  (s.previous ++ s.inner).map PickerGroup.ofNode

def PickerVariable.toJson (v : PickerVariable) : Json := .object [
  ("key", .text v.key), ("name", .text v.name), ("dataType", .text v.type), ("path", .text v.name)]

def PickerGroup.toJson (g : PickerGroup) : Json := .object [
  ("nodeId", g.node.toJson),
  ("nodeName", .text g.name),
  ("nodeType", g.type.toJson),
  ("variables", Json.list PickerVariable.toJson g.vars)]

end FlowScope
