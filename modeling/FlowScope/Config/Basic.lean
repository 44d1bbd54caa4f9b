import FlowScope.Argument.Basic
/-!
Settings: the snapshot to look at, the format of the answers, patterns for what is no snapshot, and
variables that the system provides.
-/
namespace FlowScope

/-- The format of answers: for people, or for programs. -/
inductive AnswerFormat where
  | human
  | json
deriving DecidableEq, Repr

namespace AnswerFormat

def name : AnswerFormat → String
  | human => "human"
  | json => "json"

def all : List AnswerFormat := [human, json]

def ofName? (name : String) : Option AnswerFormat := all.find? (·.name == name)

theorem ofName?_name (f : AnswerFormat) : ofName? f.name = some f := by
  cases f <;> decide

end AnswerFormat

/-- A variable that every start node exposes beside the usual ones. -/
structure SystemVariable where
  name : String
  type : DataType := .string
  description : String := ""
deriving DecidableEq, Repr

def SystemVariable.toArgument (v : SystemVariable) : Argument :=
  Argument.provided v.name v.type v.description

/-- Settings. -/
structure Config where
  graph : Option String := none
  format : Option AnswerFormat := none
  exclude : List String := []
  systemVariables : List SystemVariable := []
deriving DecidableEq, Repr, Inhabited

namespace Config

/-- Where settings are looked for. -/
def defaultPath : String := "flowref.toml"

/-- The settings to begin with. -/
def initial : Config where
  graph := some "workflow.json"
  format := some .human

def systemArguments (c : Config) : List Argument := c.systemVariables.map SystemVariable.toArgument

end Config

end FlowScope
