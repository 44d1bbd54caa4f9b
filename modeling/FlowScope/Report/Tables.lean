import FlowScope.Check
import FlowScope.Report.Style
import FlowScope.Report.Table
import FlowScope.Workflow.Stats
/-!
The tables of the reports: counts, the arguments in a scope, and references.
-/
namespace FlowScope.Report

def valuesTable (rows : List (String × String)) : Table where
  heads := ["Metric", "Value"]
  rows := rows.map fun (name, value) => [name, value]

/-- The counts over a workflow. -/
def statsTable (s : Stats) : Table :=
  valuesTable ([
    ("Nodes", toString s.nodes),
    ("In loop bodies", toString s.nested),
    ("Loops", toString s.loops),
    ("Roots", toString s.roots),
    ("Edges", toString s.edges)] ++
    s.edgesByKind.map fun (kind, count) => ("  " ++ kind.name, toString count))

/-- By which way a node of a scope is reached, where that is not the usual one. -/
def viaCell (theme : Theme) (inner viaException : Bool) : String :=
  if inner then theme.paint .loopBody "loop body"
  else if viaException then theme.paint .exception "exception"
  else ""

def scopeRows (theme : Theme) (inner : Bool) (n : ScopeNode) : List (List String) :=
  n.arguments.map fun a => [
    theme.paint .token (Token.key n.id a.name),
    n.name,
    n.type.name,
    theme.paint .dataType ((a.type.map DataType.tag).getD ""),
    viaCell theme inner n.viaException]

def scopeTable (theme : Theme) (s : Scope) : Table where
  heads := ["Token", "Node", "Type", "Data Type", "Via"]
  rows := s.previous.flatMap (scopeRows theme false) ++ s.inner.flatMap (scopeRows theme true)

/-- References with the nodes that hold them. -/
def referencesTable (report : List NodeReferences) : Table where
  heads := ["Node", "Field", "Token"]
  rows := report.flatMap fun n => n.references.map fun r =>
    [n.name ++ " (" ++ n.node.text ++ ")", r.field, r.token]

end FlowScope.Report
