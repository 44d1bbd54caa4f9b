import FlowScope.Edge
import FlowScope.Node.Json
/-!
Workflows: nodes, further edges between them, and variables that the system provides to the start
of this workflow in particular.
-/
namespace FlowScope

/-- A snapshot of a workflow. -/
structure Workflow where
  nodes : List Node := []
  edges : List Edge := []
  systemVariables : List Argument := []
deriving Repr, Inhabited

namespace Workflow

inductive Field where
  | nodes | edges | systemVariables
deriving DecidableEq, Repr

/-- The fields in order, with their keys. -/
def layout : Json.Layout Field where
  record := "WorkflowGraph"
  fields := [.nodes, .edges, .systemVariables]
  key
    | .nodes => "nodes"
    | .edges => "edges"
    | .systemVariables => "systemVariables"
  aliases
    | .nodes => ["nodeList"]
    | .edges => ["edgeList"]
    | .systemVariables => []

/-- What each field holds. -/
abbrev Field.Value : Field → Type
  | .nodes => List Node
  | .edges => List Edge
  | .systemVariables => List Argument

/-- How the fields are read. -/
def schema : Json.Schema Field Field.Value where
  toLayout := layout
  read
    | .nodes => Json.orElse [] (Json.readList Node.read)
    | .edges => Json.orElse [] (Json.readList Edge.read)
    | .systemVariables => Argument.readMany
  empty
    | .nodes => []
    | .edges => []
    | .systemVariables => []

def read : Json.Decoder Workflow := fun depth j =>
  (schema.readFields depth j).map fun v => ⟨v .nodes, v .edges, v .systemVariables⟩

def ofDocument (d : Json.Document) : Except Json.Error Workflow :=
  d.decode read

def ofText (s : String) : Except Json.Error Workflow :=
  ofDocument (Json.Document.ofText s)

def toJson (w : Workflow) : Json :=
  layout.write fun
    | .nodes => some (Json.list Node.toJson w.nodes)
    | .edges => NodeConfig.unlessEmpty Edge.toJson w.edges
    | .systemVariables => NodeConfig.unlessEmpty Argument.toJson w.systemVariables

end Workflow

end FlowScope
