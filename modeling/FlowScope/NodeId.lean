import FlowScope.Text.Blank
import FlowScope.Json.Decode
/-!
Identifiers of nodes. A document writes an identifier as a number or as a text; both are the same
identifier.
-/
namespace FlowScope

/-- The identifier of a node. -/
structure NodeId where
  text : String
deriving DecidableEq, Repr, Inhabited

namespace NodeId

/-- The identifier that a number stands for. -/
def ofInt (n : Int) : NodeId := ⟨toString n⟩

/-- Read an identifier: a whole number of 64 bits with sign, or a text, of which the blanks at both
ends do not count. -/
def read : Json.Decoder NodeId
  | depth, j =>
      match j.readFault? depth with
      | some f => .error (.fault f)
      | none =>
          match j with
          | .str (.text s) => .ok ⟨Text.trim s⟩
          | .num n =>
              match n.integer? with
              | some i => if i < (Nat.pow 2 63 : Nat) then .ok (ofInt i) else .error (.mismatch .noId)
              | none => .error (.mismatch .noId)
          | _ => .error (.mismatch .noId)

/-- Write an identifier, always as a text. -/
def toJson (id : NodeId) : Json := .text id.text

end NodeId

end FlowScope
