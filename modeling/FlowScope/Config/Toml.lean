import FlowScope.Config.Basic
import FlowScope.Toml.Printer
import FlowScope.Toml.Reader
/-!
Settings as a TOML text. Keys without a meaning are passed over; a value of the wrong kind makes the
whole text unsound.
-/
namespace FlowScope

open Toml (Entries)

def Toml.text? : Toml → Option String
  | .text s => some s
  | _ => none

def Toml.elements? : Toml → Option (List Toml)
  | .array items => some items
  | .tables each => some (each.map (.table .header))
  | _ => none

/-- The value at a key, or a default where there is none. -/
def Toml.Entries.get {α : Type} (es : Entries) (key : String) (ifMissing : α)
    (read : Toml → Option α) : Option α :=
  match es.lookup key with
  | none => some ifMissing
  | some v => read v

/-- The format that a value names: by its text, or as the first key of a table, where there is nothing
to say about the format. Braces have room for one key only. -/
def AnswerFormat.ofToml? : Toml → Option AnswerFormat
  | .text name => ofName? name
  | .braces [(name, v)] => if v.isEmpty then ofName? name else none
  | .table _ ((name, v) :: _) => if v.isEmpty then ofName? name else none
  | _ => none

namespace SystemVariable

def typeOfToml? (v : Toml) : Option DataType := v.text?.bind DataType.ofTag?

def ofEntries? (es : Entries) : Option SystemVariable := do
  let name ← (← es.lookup "name").text?
  let type ← es.get "data_type" .string typeOfToml?
  let description ← es.get "description" "" Toml.text?
  return { name, type, description }

/-- The variable of a list: name, type and description, of which the latter two may be missing. -/
def ofItems? : List Toml → Option SystemVariable
  | [] => none
  | [name] => do return { name := ← name.text? }
  | [name, type] => do return { name := ← name.text?, type := ← typeOfToml? type }
  | name :: type :: description :: _ => do
      return { name := ← name.text?, type := ← typeOfToml? type, description := ← description.text? }

/-- The variable that a value describes. -/
def ofToml? : Toml → Option SystemVariable
  | .braces es | .table _ es => ofEntries? es
  | .array items => ofItems? items
  | _ => none

def entries (v : SystemVariable) : List (String × String) := [
  ("name", Toml.writeText v.name),
  ("data_type", Toml.writeText v.type.tag),
  ("description", Toml.writeText v.description)]

end SystemVariable

namespace Config

/-- The settings of the entries of a text. -/
def ofEntries? (es : Entries) : Option Config := do
  let graph ← es.get "graph" none fun v => v.text?.map some
  let format ← es.get "format" none fun v => (AnswerFormat.ofToml? v).map some
  let exclude ← es.get "exclude" [] fun v => v.elements?.bind (·.mapM Toml.text?)
  let systemVariables ← es.get "system_variables" [] fun v =>
    v.elements?.bind (·.mapM SystemVariable.ofToml?)
  return { graph, format, exclude, systemVariables }

def ofToml? (s : String) : Option Config := (Toml.ofText? s).bind ofEntries?

/-- The settings that are written in front of the tables. -/
def entries (c : Config) : List (String × String) :=
  (c.graph.map fun graph => ("graph", Toml.writeText graph)).toList ++
    (c.format.map fun format => ("format", Toml.writeText format.name)).toList ++
    (if c.exclude.isEmpty then [] else [("exclude", Toml.writeList c.exclude)])

/-- The text for settings: a line for each, and a table for each variable. Every table has an empty line
in front of it, unless it is the first thing in the text. -/
def toToml (c : Config) : String :=
  let front := Toml.writeEntries c.entries
  let tables := c.systemVariables.map fun v =>
    "[[system_variables]]\n" ++ Toml.writeEntries v.entries
  if front.isEmpty then String.intercalate "\n" tables
  else front ++ String.join (tables.map ("\n" ++ ·))

end Config

end FlowScope
