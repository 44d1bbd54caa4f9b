import FlowScope.Argument.Basic
import FlowScope.Text.Blank
import FlowScope.Json.Record
/-!
Arguments as JSON. A data type that is not known, blank or `null` makes the argument untyped; it
does not make the document unsound.
-/
namespace FlowScope

open Json (Decoder)

def DataType.toJson (type : DataType) : Json := .text type.tag

/-- Read the tag of a type that has to be known. -/
def DataType.read : Decoder DataType
  | depth, j => do
      let tag ← Json.readText depth j
      match DataType.ofTag tag with
      | .ok type => return type
      | .error reason => .error (.mismatch (.malformed reason))

/-- The type of a tag, if the tag is known and not blank. -/
def DataType.lenient (tag : String) : Option DataType :=
  if Text.isAllBlank tag then none else DataType.ofTag? tag

/-- Read the tag of a type that may be anything, or be missing. -/
def DataType.readLenient : Decoder (Option DataType) :=
  Json.orElse none fun depth j => (Json.readText depth j).map DataType.lenient

namespace BindMode

def name : BindMode → String
  | input => "Input"
  | reference => "Reference"

def all : List BindMode := [input, reference]

def ofName? (name : String) : Option BindMode := all.find? (·.name == name)

def read : Decoder BindMode := Json.readVariant ofName? (all.map name)

def toJson (mode : BindMode) : Json := .text mode.name

end BindMode

namespace Argument

inductive Field where
  | name | type | description | required | system | bindMode | bindValue | fields | originType
deriving DecidableEq, Repr

/-- The fields in order, with their keys. -/
def layout : Json.Layout Field where
  record := "ArgDef"
  fields :=
    [.name, .type, .description, .required, .system, .bindMode, .bindValue, .fields, .originType]
  key
    | .name => "name"
    | .type => "dataType"
    | .description => "description"
    | .required => "require"
    | .system => "systemVariable"
    | .bindMode => "bindValueType"
    | .bindValue => "bindValue"
    | .fields => "subArgs"
    | .originType => "originDataType"
  aliases
    | .required => ["required"]
    | _ => []

/-- What each field holds. -/
abbrev Field.Value : Field → Type
  | .name => String
  | .type => Option DataType
  | .description => Option String
  | .required => Bool
  | .system => Bool
  | .bindMode => Option BindMode
  | .bindValue => Option String
  | .fields => List Argument
  | .originType => Option DataType

/-- How the fields are read, given how an argument inside is read. -/
def schema (inner : Decoder Argument) : Json.Schema Field Field.Value where
  toLayout := layout
  read
    | .name => Json.readText
    | .type => DataType.readLenient
    | .description => Json.readOption Json.readText
    | .required => Json.orElse false Json.readBool
    | .system => Json.orElse false Json.readBool
    | .bindMode => Json.readOption BindMode.read
    | .bindValue => Json.readOption Json.readText
    | .fields => Json.orElse [] (Json.readList inner)
    | .originType => DataType.readLenient
  empty
    | .name => ""
    | .type => none
    | .description => none
    | .required => false
    | .system => false
    | .bindMode => none
    | .bindValue => none
    | .fields => []
    | .originType => none
  neededInObject f := f == .name

def ofFields (v : (f : Field) → f.Value) : Argument where
  name := v .name
  type := v .type
  description := v .description
  required := v .required
  system := v .system
  bindMode := v .bindMode
  bindValue := v .bindValue
  fields := v .fields
  originType := v .originType

/-- Read an argument with at most so many arguments inside each other. -/
def readNested : Nat → Decoder Argument
  | 0 => fun _ _ => .error (.fault .tooDeep)
  | n + 1 => fun depth j => ((schema (readNested n)).readFields depth j).map ofFields

/-- Read an argument. Every argument inside another is at least one level deeper, so the limit on
levels also bounds the nesting. -/
def read : Decoder Argument := fun depth => readNested depth depth

/-- What is written for a field, if anything, once the fields of an object are written. -/
def member (a : Argument) (fields : List Json) : Field → Option Json
  | .name => some (.text a.name)
  | .type => some (Json.orNull DataType.toJson a.type)
  | .description => a.description.map .text
  | .required => some (.bool a.required)
  | .system => some (.bool a.system)
  | .bindMode => a.bindMode.map BindMode.toJson
  | .bindValue => a.bindValue.map .text
  | .fields => if fields.isEmpty then none else some (.array fields)
  | .originType => a.originType.map DataType.toJson

mutual

def toJson : Argument → Json
  | a@⟨_, _, _, _, _, _, _, fields, _⟩ => layout.write (a.member (listToJson fields))

def listToJson : List Argument → List Json
  | [] => []
  | a :: rest => a.toJson :: listToJson rest

end

theorem listToJson_eq_map (as : List Argument) : listToJson as = as.map toJson := by
  induction as with
  | nil => simp [listToJson]
  | cons a rest ih => simp [listToJson, ih]

/-- Read a list of arguments, which may be `null`. -/
def readMany : Decoder (List Argument) := Json.orElse [] (Json.readList read)

def manyToJson (as : List Argument) : Json := Json.list toJson as

end Argument

end FlowScope
