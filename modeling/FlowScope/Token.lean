import FlowScope.NodeId
/-!
Reference tokens: `node.argument`, or `node.argument.field…` for a field inside an argument. A text
is a token when, blanks at its ends aside, the dots cut it into at least two pieces and no piece
is empty.
-/
namespace FlowScope

/-- A reference to an argument of a node, or to a field inside it. -/
structure Token where
  node : NodeId
  argument : String
  fields : List String := []
deriving DecidableEq, Repr

namespace Token

/-- The pieces of a text between its dots. -/
def pieces (s : String) : List String :=
  (s.toList.splitOn '.').map String.ofList

/-- Pieces with a dot between each two. -/
def joined (pieces : List String) : String :=
  String.intercalate "." pieces

/-- Read a token; the error names the text without the blanks at its ends. -/
def parse (s : String) : Except Malformed Token :=
  let trimmed := Text.trim s
  match pieces trimmed with
  | node :: argument :: fields =>
      if (node :: argument :: fields).contains "" then .error (.token trimmed)
      else .ok ⟨⟨node⟩, argument, fields⟩
  | _ => .error (.token trimmed)

/-- The token of a text, if it is one. -/
def parse? (s : String) : Option Token := (parse s).toOption

def path (t : Token) : List String := t.argument :: t.fields

def pathText (t : Token) : String := joined t.path

def text (t : Token) : String := t.node.text ++ "." ++ t.pathText

def key (node : NodeId) (argument : String) : String :=
  node.text ++ "." ++ argument

/-- The text of the token for the argument alone, without the fields below it. -/
def root (t : Token) : String := key t.node t.argument

def pointsAt (t : Token) (node : NodeId) : Bool := t.node == node

def read : Json.Decoder Token
  | depth, j => do
      let s ← Json.readText depth j
      match parse s with
      | .ok t => return t
      | .error reason => .error (.mismatch (.malformed reason))

def toJson (t : Token) : Json := .text t.text

end Token

end FlowScope
