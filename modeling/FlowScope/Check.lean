import FlowScope.FieldReference
import FlowScope.Scope.Basic
/-!
Checks of references against scopes. A reference is dangling when the scope of its node has no
argument for it, nor a field inside an argument.
-/
namespace FlowScope

/-- The references of a node that lead nowhere. -/
def Node.dangling (n : Node) (m : ArgumentMap) : List FieldReference :=
  n.references.filter fun r => (m.resolve? r.token).isNone

/-- The nodes of a workflow with dangling references, each checked against its own scope. -/
def Workflow.check (w : Workflow) (further : List Argument) : List NodeReferences :=
  let ix := w.index
  let system := w.allSystemVariables further
  ix.pickReferences fun i => (ix.nodeAt i).dangling (ix.scopeAt system i).arguments

def danglingCount (report : List NodeReferences) : Nat :=
  (report.flatMap (·.references)).length

end FlowScope
