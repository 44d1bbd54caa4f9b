import FlowScope.Json.Decode
/-!
The types of nodes.
-/
namespace FlowScope

/-- What a node does. -/
inductive NodeType where
  | start | finish | llm | code | condition | intentRecognition | loop | loopBreak | loopContinue
  | httpRequest | knowledge | database | plugin | workflow | variableAccess | textProcessing
  | documentExtraction | output | qa | longTermMemory
deriving DecidableEq, Repr, Inhabited

namespace NodeType

/-- Every type, in order. -/
def all : List NodeType := [
  .start, .finish, .llm, .code, .condition, .intentRecognition, .loop, .loopBreak, .loopContinue,
  .httpRequest, .knowledge, .database, .plugin, .workflow, .variableAccess, .textProcessing,
  .documentExtraction, .output, .qa, .longTermMemory]

def name : NodeType → String
  | .start => "Start"
  | .finish => "End"
  | .llm => "LLM"
  | .code => "Code"
  | .condition => "Condition"
  | .intentRecognition => "IntentRecognition"
  | .loop => "Loop"
  | .loopBreak => "LoopBreak"
  | .loopContinue => "LoopContinue"
  | .httpRequest => "HTTPRequest"
  | .knowledge => "Knowledge"
  | .database => "Database"
  | .plugin => "Plugin"
  | .workflow => "Workflow"
  | .variableAccess => "Variable"
  | .textProcessing => "TextProcessing"
  | .documentExtraction => "DocumentExtraction"
  | .output => "Output"
  | .qa => "QA"
  | .longTermMemory => "LongTermMemory"

theorem mem_all (type : NodeType) : type ∈ all := by
  cases type <;> decide

def ofName? (name : String) : Option NodeType := all.find? (·.name == name)

/-- A text with the letters from A to Z made small. -/
def lower (s : String) : List Char := s.toList.map Char.toLower

/-- The type with a name, whatever the case of its letters. -/
def parse (name : String) : Except Malformed NodeType :=
  match all.find? fun type => lower type.name == lower name with
  | some type => .ok type
  | none => .error (.nodeType name)

def read : Json.Decoder NodeType := Json.readVariant ofName? (all.map name)

def toJson (type : NodeType) : Json := .text type.name

end NodeType

end FlowScope
