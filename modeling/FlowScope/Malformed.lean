/-!
The texts this library reads, apart from whole documents, are short: a data type tag, a
reference token, the name of a node type or of an edge kind. This module holds the one error
type of those readers.
-/
namespace FlowScope

/-- A text that does not follow the form it should have. -/
inductive Malformed where
  /-- A tag whose innermost piece names no data type. -/
  | dataType (piece : String)
  /-- A text that is no reference token. -/
  | token (text : String)
  /-- A name of no node type. -/
  | nodeType (name : String)
  /-- A name of no edge kind. -/
  | edgeKind (name : String)
deriving DecidableEq, Repr

/-- What a reader of the text is told. -/
def Malformed.message : Malformed → String
  | .dataType piece => "Invalid data type: " ++ piece
  | .token text => "Invalid reference token: " ++ text
  | .nodeType name => "Unknown node type: " ++ name
  | .edgeKind name => "Invalid reference token: Unknown edge kind: " ++ name

end FlowScope
