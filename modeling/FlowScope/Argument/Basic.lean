import FlowScope.DataType
/-!
Arguments: the typed values that nodes consume and produce.
-/
namespace FlowScope

/-- How an input gets its value: as a literal, or from the argument that a token names. -/
inductive BindMode where
  | input
  | reference
deriving DecidableEq, Repr

/-- An input or output of a node. An object's fields are arguments of their own. -/
structure Argument where
  name : String
  type : Option DataType := none
  description : Option String := none
  required : Bool := false
  system : Bool := false
  bindMode : Option BindMode := none
  bindValue : Option String := none
  fields : List Argument := []
  /-- The type before the outputs of all rounds of a loop were collected into one argument. -/
  originType : Option DataType := none
deriving Repr, Inhabited

/-- The token that a binding holds, if it is a reference and not empty. -/
def boundToken (mode : Option BindMode) (value : Option String) : Option String :=
  match mode, value with
  | some .reference, some token => if token = "" then none else some token
  | _, _ => none

namespace Argument

/-- An argument of a type, and nothing else set. -/
def typed (name : String) (type : DataType) : Argument :=
  { name, type := some type }

/-- A variable that the system provides. -/
def provided (name : String) (type : DataType) (description : String) : Argument :=
  { name, type := some type, description := some description, system := true }

/-- Bind to the argument that a token names. -/
def boundTo (a : Argument) (token : String) : Argument :=
  { a with bindMode := some .reference, bindValue := some token }

def withLiteral (a : Argument) (value : String) : Argument :=
  { a with bindMode := some .input, bindValue := some value }

/-- The token that the argument is bound to. -/
def reference (a : Argument) : Option String :=
  boundToken a.bindMode a.bindValue

/-- The argument without its binding. -/
def unbound (a : Argument) : Argument :=
  { a with bindMode := none, bindValue := none }

theorem reference_unbound (a : Argument) : a.unbound.reference = none := rfl

theorem reference_boundTo {a : Argument} {token : String} (h : token ≠ "") :
    (a.boundTo token).reference = some token := by
  simp [reference, boundTo, boundToken, h]

def field? (a : Argument) (name : String) : Option Argument :=
  a.fields.find? (·.name == name)

/-- The argument that a path of field names leads to. -/
def path? (a : Argument) : List String → Option Argument
  | [] => some a
  | name :: rest => (a.field? name).bind (·.path? rest)

/-- The argument as its loop sees it from outside: the list of its values, one for each round. -/
def collected (a : Argument) : Argument :=
  { a with type := some (DataType.collected a.type), originType := a.type }

end Argument

end FlowScope
