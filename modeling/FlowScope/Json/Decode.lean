import FlowScope.Malformed
import FlowScope.Text.Quoted
import FlowScope.Json.Number
import FlowScope.Json.Reader
/-!
Making values of the library out of JSON values. A decoder walks the value in the order of the
text, so the first problem there is the one it reports: a fault of the text, or a value that does
not fit. It is told how many more arrays and objects it may enter.
-/
namespace FlowScope.Json

/-- Why a value does not fit, though it is sound JSON. -/
inductive Mismatch where
  | wrongType (found wanted : String)
  | duplicate (field : String)
  | missing (field : String)
  | tooShort (length : Nat) (record : String) (fields : Nat)
  | unknownVariant (given : String) (known : List String)
  | noId
  | malformed (reason : Malformed)
deriving DecidableEq, Repr

/-- A name in the quotes that messages use for names. -/
def named (name : String) : String := "`" ++ name ++ "`"

/-- The names that would have been right. -/
def choices : List String → String
  | [] => "there are no variants"
  | [a] => "expected " ++ named a
  | [a, b] => "expected " ++ named a ++ " or " ++ named b
  | names => "expected one of " ++ String.intercalate ", " (names.map named)

def Mismatch.message : Mismatch → String
  | wrongType found wanted => "invalid type: " ++ found ++ ", expected " ++ wanted
  | duplicate field => "duplicate field " ++ named field
  | missing field => "missing field " ++ named field
  | tooShort length record fields =>
      "invalid length " ++ toString length ++ ", expected struct " ++ record ++ " with " ++
        toString fields ++ (if fields = 1 then " element" else " elements")
  | unknownVariant given known => "unknown variant " ++ named given ++ ", " ++ choices known
  | noId => "data did not match any variant of untagged enum RawId"
  | malformed reason => reason.message

/-- Why nothing could be made of a document. -/
inductive Error where
  | fault (f : Fault)
  | mismatch (m : Mismatch)
deriving DecidableEq, Repr

def Error.message : Error → String
  | fault f => f.message
  | mismatch m => m.message

/-- From the number of arrays and objects that may still be entered, counting one that may not, and
a value. -/
abbrev Decoder (α : Type) := Nat → Json → Except Error α

/-- How deep the arrays and objects of a text may nest, counting the first level that is too deep. -/
def depthLimit : Nat := 128

/-- The limit inside an array or object. -/
def inside : Nat → Except Error Nat
  | depth + 2 => .ok (depth + 1)
  | _ => .error (.fault .tooDeep)

/-- The error for a value of another kind than the one that is wanted. -/
def wrongType (wanted : String) : Json → Error
  | .null => .mismatch (.wrongType "null" wanted)
  | .bool b => .mismatch (.wrongType ("boolean " ++ named (if b then "true" else "false")) wanted)
  | .num n =>
      if n.outOfRange then .fault .numberOutOfRange
      else .mismatch (.wrongType n.describe wanted)
  | .str (.text s) => .mismatch (.wrongType ("string " ++ Text.quoted s) wanted)
  | .str (.faulty read _) => .fault read
  | .arr _ _ => .mismatch (.wrongType "sequence" wanted)
  | .obj _ _ => .mismatch (.wrongType "map" wanted)
  | .broken read _ => .fault read

/-- Nothing more, or the fault that follows. -/
def ended : Option Fault → Except Error Unit
  | none => .ok ()
  | some f => .error (.fault f)

def readText : Decoder String
  | _, .str (.text s) => .ok s
  | _, j => .error (wrongType "a string" j)

/-- A truth value. -/
def readBool : Decoder Bool
  | _, .bool b => .ok b
  | _, j => .error (wrongType "a boolean" j)

/-- `null` as the given value, anything else as the decoder has it. -/
def orElse {α : Type} (ifNull : α) (read : Decoder α) : Decoder α
  | _, .null => .ok ifNull
  | depth, j => read depth j

/-- `null` as nothing. -/
def readOption {α : Type} (read : Decoder α) : Decoder (Option α) :=
  orElse none fun depth j => (read depth j).map some

/-- The values of an array. -/
def readList {α : Type} (read : Decoder α) : Decoder (List α)
  | depth, .arr items stop => do
      let depth ← inside depth
      let as ← items.mapM (read depth)
      ended stop
      return as
  | _, j => .error (wrongType "a sequence" j)

/-- The members of an object, every one of them of the same kind. -/
def readMap {α : Type} (read : Decoder α) : Decoder (List (String × α))
  | depth, .obj members stop => do
      let depth ← inside depth
      let as ← members.mapM fun
        | (.text key, value) => return (key, ← read depth value)
        | (.faulty f _, _) => .error (.fault f)
      ended stop
      return as
  | _, j => .error (wrongType "a map" j)

/-- One of a closed set of names. -/
def variant {α : Type} (ofName? : String → Option α) (known : List String) (name : String) :
    Except Error α :=
  match ofName? name with
  | some a => .ok a
  | none => .error (.mismatch (.unknownVariant name known))

/-- One of a closed set of names: the name as a text, or an object with the name as its only key and
`null` as the value. Any other kind of value counts as a fault of the text. -/
def readVariant {α : Type} (ofName? : String → Option α) (known : List String) : Decoder α
  | _, .str (.text name) => variant ofName? known name
  | _, .str (.faulty read _) => .error (.fault read)
  | depth, .obj members stop => do
      let _ ← inside depth
      match members with
      | [] =>
          ended stop
          .error (.fault .expectedValue)
      | (.faulty read _, _) :: _ => .error (.fault read)
      | (.text name, value) :: rest =>
          let a ← variant ofName? known name
          match value with
          | .null =>
              if rest.isEmpty then
                ended stop
                return a
              else .error (.fault .expectedValue)
          | j => .error (wrongType "unit" j)
  | _, .broken .endInValue _ => .error (.fault .endInValue)
  | _, _ => .error (.fault .expectedValue)

mutual

/-- The first fault met by one who reads every part of a value, whatever it holds. -/
def readFault? (depth : Nat) : Json → Option Fault
  | .num n => if n.outOfRange then some .numberOutOfRange else none
  | .str (.faulty read _) => some read
  | .arr items stop =>
      if depth ≤ 1 then some .tooDeep else (readFaultItems? (depth - 1) items).or stop
  | .obj members stop =>
      if depth ≤ 1 then some .tooDeep else (readFaultMembers? (depth - 1) members).or stop
  | .broken read _ => some read
  | _ => none

def readFaultItems? (depth : Nat) : List Json → Option Fault
  | [] => none
  | item :: rest => (readFault? depth item).or (readFaultItems? depth rest)

def readFaultMembers? (depth : Nat) : List (Quoted × Json) → Option Fault
  | [] => none
  | (.faulty read _, _) :: _ => some read
  | (.text _, value) :: rest => (readFault? depth value).or (readFaultMembers? depth rest)

end

/-- Make a value out of a document. What is wrong inside the root comes before what follows it. -/
def Document.decode {α : Type} (read : Decoder α) (d : Document) : Except Error α := do
  let a ← read depthLimit d.root
  ended d.trailing
  return a

end FlowScope.Json
