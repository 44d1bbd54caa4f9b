import FlowScope.Node.Basic
import FlowScope.Argument.Json
/-!
The parts of a node's configuration as JSON: handling of failures, conditions, intents and answers.
All their keys are written, whether they are set or not.
-/
namespace FlowScope

open Json (Decoder)

/-- Read a list of identifiers, which may be `null`. -/
def NodeId.readMany : Decoder (List NodeId) := Json.orElse [] (Json.readList NodeId.read)

def NodeId.manyToJson (ids : List NodeId) : Json := Json.list NodeId.toJson ids

def Json.readTextOption : Decoder (Option String) := Json.readOption Json.readText

namespace FailureMode

def name : FailureMode → String
  | interrupt => "INTERRUPT"
  | specificContent => "SPECIFIC_CONTENT"
  | executeFlow => "EXECUTE_EXCEPTION_FLOW"

def all : List FailureMode := [interrupt, specificContent, executeFlow]

def read : Decoder FailureMode :=
  Json.readVariant (fun s => all.find? (·.name == s)) (all.map name)

def toJson (mode : FailureMode) : Json := .text mode.name

end FailureMode

namespace VariableMode

def name : VariableMode → String
  | set => "SET_VARIABLE"
  | get => "GET_VARIABLE"

def all : List VariableMode := [set, get]

def read : Decoder VariableMode :=
  Json.readVariant (fun s => all.find? (·.name == s)) (all.map name)

def toJson (mode : VariableMode) : Json := .text mode.name

end VariableMode

namespace FailureHandling

inductive Field where
  | mode | handlers
deriving DecidableEq, Repr

/-- The fields in order, with their keys. -/
def layout : Json.Layout Field where
  record := "ExceptionHandleConfig"
  fields := [.mode, .handlers]
  key
    | .mode => "exceptionHandleType"
    | .handlers => "exceptionHandleNodeIds"

/-- What each field holds. -/
abbrev Field.Value : Field → Type
  | .mode => Option FailureMode
  | .handlers => List NodeId

/-- How the fields are read. -/
def schema : Json.Schema Field Field.Value where
  toLayout := layout
  read
    | .mode => Json.readOption FailureMode.read
    | .handlers => NodeId.readMany
  empty
    | .mode => none
    | .handlers => []

def read : Decoder FailureHandling := fun depth j =>
  (schema.readFields depth j).map fun v => ⟨v .mode, v .handlers⟩

def toJson (h : FailureHandling) : Json :=
  layout.write fun
    | .mode => some (Json.orNull FailureMode.toJson h.mode)
    | .handlers => some (NodeId.manyToJson h.handlers)

end FailureHandling

namespace Operand

inductive Field where
  | name | bindMode | bindValue | type
deriving DecidableEq, Repr

/-- The fields in order, with their keys. -/
def layout : Json.Layout Field where
  record := "BindConfig"
  fields := [.name, .bindMode, .bindValue, .type]
  key
    | .name => "name"
    | .bindMode => "bindValueType"
    | .bindValue => "bindValue"
    | .type => "dataType"

/-- What each field holds. -/
abbrev Field.Value : Field → Type
  | .name => Option String
  | .bindMode => Option BindMode
  | .bindValue => Option String
  | .type => Option DataType

/-- How the fields are read. -/
def schema : Json.Schema Field Field.Value where
  toLayout := layout
  read
    | .name => Json.readTextOption
    | .bindMode => Json.readOption BindMode.read
    | .bindValue => Json.readTextOption
    | .type => DataType.readLenient
  empty
    | .name => none
    | .bindMode => none
    | .bindValue => none
    | .type => none

def read : Decoder Operand := fun depth j =>
  (schema.readFields depth j).map fun v => ⟨v .name, v .bindMode, v .bindValue, v .type⟩

def toJson (o : Operand) : Json :=
  layout.write fun
    | .name => some (Json.orNull .text o.name)
    | .bindMode => some (Json.orNull BindMode.toJson o.bindMode)
    | .bindValue => some (Json.orNull .text o.bindValue)
    | .type => some (Json.orNull DataType.toJson o.type)

end Operand

namespace Comparison

inductive Field where
  | compareType | first | second
deriving DecidableEq, Repr

/-- The fields in order, with their keys. -/
def layout : Json.Layout Field where
  record := "ConditionArgs"
  fields := [.compareType, .first, .second]
  key
    | .compareType => "compareType"
    | .first => "firstArg"
    | .second => "secondArg"

/-- What each field holds. -/
abbrev Field.Value : Field → Type
  | .compareType => Option String
  | .first => Option Operand
  | .second => Option Operand

/-- How the fields are read. -/
def schema : Json.Schema Field Field.Value where
  toLayout := layout
  read
    | .compareType => Json.readTextOption
    | .first => Json.readOption Operand.read
    | .second => Json.readOption Operand.read
  empty
    | .compareType => none
    | .first => none
    | .second => none

def read : Decoder Comparison := fun depth j =>
  (schema.readFields depth j).map fun v => ⟨v .compareType, v .first, v .second⟩

def toJson (c : Comparison) : Json :=
  layout.write fun
    | .compareType => some (Json.orNull .text c.compareType)
    | .first => some (Json.orNull Operand.toJson c.first)
    | .second => some (Json.orNull Operand.toJson c.second)

end Comparison

namespace ConditionBranch

inductive Field where
  | branchType | next | comparisons
deriving DecidableEq, Repr

/-- The fields in order, with their keys. -/
def layout : Json.Layout Field where
  record := "ConditionBranchConfig"
  fields := [.branchType, .next, .comparisons]
  key
    | .branchType => "branchType"
    | .next => "nextNodeIds"
    | .comparisons => "conditionArgs"

/-- What each field holds. -/
abbrev Field.Value : Field → Type
  | .branchType => Option String
  | .next => List NodeId
  | .comparisons => List Comparison

/-- How the fields are read. -/
def schema : Json.Schema Field Field.Value where
  toLayout := layout
  read
    | .branchType => Json.readTextOption
    | .next => NodeId.readMany
    | .comparisons => Json.orElse [] (Json.readList Comparison.read)
  empty
    | .branchType => none
    | .next => []
    | .comparisons => []

def read : Decoder ConditionBranch := fun depth j =>
  (schema.readFields depth j).map fun v => ⟨v .branchType, v .next, v .comparisons⟩

def toJson (b : ConditionBranch) : Json :=
  layout.write fun
    | .branchType => some (Json.orNull .text b.branchType)
    | .next => some (NodeId.manyToJson b.next)
    | .comparisons => some (Json.list Comparison.toJson b.comparisons)

end ConditionBranch

namespace IntentBranch

inductive Field where
  | intent | next
deriving DecidableEq, Repr

/-- The fields in order, with their keys. -/
def layout : Json.Layout Field where
  record := "IntentConfig"
  fields := [.intent, .next]
  key
    | .intent => "intent"
    | .next => "nextNodeIds"

/-- What each field holds. -/
abbrev Field.Value : Field → Type
  | .intent => Option String
  | .next => List NodeId

/-- How the fields are read. -/
def schema : Json.Schema Field Field.Value where
  toLayout := layout
  read
    | .intent => Json.readTextOption
    | .next => NodeId.readMany
  empty
    | .intent => none
    | .next => []

def read : Decoder IntentBranch := fun depth j =>
  (schema.readFields depth j).map fun v => ⟨v .intent, v .next⟩

def toJson (b : IntentBranch) : Json :=
  layout.write fun
    | .intent => some (Json.orNull .text b.intent)
    | .next => some (NodeId.manyToJson b.next)

end IntentBranch

namespace AnswerBranch

inductive Field where
  | content | next
deriving DecidableEq, Repr

/-- The fields in order, with their keys. -/
def layout : Json.Layout Field where
  record := "QaOption"
  fields := [.content, .next]
  key
    | .content => "content"
    | .next => "nextNodeIds"

/-- What each field holds. -/
abbrev Field.Value : Field → Type
  | .content => Option String
  | .next => List NodeId

/-- How the fields are read. -/
def schema : Json.Schema Field Field.Value where
  toLayout := layout
  read
    | .content => Json.readTextOption
    | .next => NodeId.readMany
  empty
    | .content => none
    | .next => []

def read : Decoder AnswerBranch := fun depth j =>
  (schema.readFields depth j).map fun v => ⟨v .content, v .next⟩

def toJson (b : AnswerBranch) : Json :=
  layout.write fun
    | .content => some (Json.orNull .text b.content)
    | .next => some (NodeId.manyToJson b.next)

end AnswerBranch

end FlowScope
