import FlowScope.Files.Tree
import FlowScope.Workflow.Basic
/-!
Snapshots of workflows in files.
-/
namespace FlowScope

/-- Why a snapshot could not be loaded. -/
inductive LoadError where
  | file (cause : FileError)
  | content (cause : Json.Error)
deriving DecidableEq, Repr

def LoadError.message : LoadError → String
  | file cause => "IO error: " ++ cause.message
  | content cause => "Snapshot error: " ++ cause.message

def Workflow.load (t : FileTree) (path : String) : Except LoadError Workflow :=
  match t.read path with
  | .error cause => .error (.file cause)
  | .ok text => (Workflow.ofText text).mapError .content

end FlowScope
