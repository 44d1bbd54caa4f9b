import FlowScope.Argument.Json
import FlowScope.Config.Basic
/-!
Settings as JSON.
-/
namespace FlowScope

open Json (Decoder)

def AnswerFormat.read : Decoder AnswerFormat := Json.readVariant ofName? (all.map name)

namespace SystemVariable

inductive Field where
  | name | type | description
deriving DecidableEq, Repr

/-- The fields in order, with their keys. -/
def layout : Json.Layout Field where
  record := "SystemVariable"
  fields := [.name, .type, .description]
  key
    | .name => "name"
    | .type => "data_type"
    | .description => "description"

/-- What each field holds. -/
abbrev Field.Value : Field → Type
  | .name => String
  | .type => DataType
  | .description => String

/-- How the fields are read. -/
def schema : Json.Schema Field Field.Value where
  toLayout := layout
  read
    | .name => Json.readText
    | .type => DataType.read
    | .description => Json.readText
  empty
    | .name => ""
    | .type => .string
    | .description => ""
  neededInObject f := f == .name

def read : Decoder SystemVariable := fun depth j =>
  (schema.readFields depth j).map fun v => ⟨v .name, v .type, v .description⟩

def toJson (v : SystemVariable) : Json :=
  layout.write fun
    | .name => some (.text v.name)
    | .type => some v.type.toJson
    | .description => some (.text v.description)

end SystemVariable

namespace Config

inductive Field where
  | graph | format | exclude | systemVariables
deriving DecidableEq, Repr

/-- The fields in order, with their keys. -/
def layout : Json.Layout Field where
  record := "FlowrefConfig"
  fields := [.graph, .format, .exclude, .systemVariables]
  key
    | .graph => "graph"
    | .format => "format"
    | .exclude => "exclude"
    | .systemVariables => "system_variables"

/-- What each field holds. -/
abbrev Field.Value : Field → Type
  | .graph => Option String
  | .format => Option AnswerFormat
  | .exclude => List String
  | .systemVariables => List SystemVariable

/-- How the fields are read. -/
def schema : Json.Schema Field Field.Value where
  toLayout := layout
  read
    | .graph => Json.readOption Json.readText
    | .format => Json.readOption AnswerFormat.read
    | .exclude => Json.readList Json.readText
    | .systemVariables => Json.readList SystemVariable.read
  empty
    | .graph => none
    | .format => none
    | .exclude => []
    | .systemVariables => []
  neededInArray f := f == .graph || f == .format

def read : Decoder Config := fun depth j =>
  (schema.readFields depth j).map fun v =>
    ⟨v .graph, v .format, v .exclude, v .systemVariables⟩

/-- Write settings. Lists without elements are left out. -/
def toJson (c : Config) : Json :=
  layout.write fun
    | .graph => some (Json.orNull .text c.graph)
    | .format => some (Json.orNull (fun f => .text f.name) c.format)
    | .exclude => if c.exclude.isEmpty then none else some (Json.list .text c.exclude)
    | .systemVariables =>
        if c.systemVariables.isEmpty then none
        else some (Json.list SystemVariable.toJson c.systemVariables)

end Config

end FlowScope
