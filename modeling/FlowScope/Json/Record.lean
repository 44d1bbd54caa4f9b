import FlowScope.Json.Decode
/-!
Records as JSON: an object with a key for every field, or an array of the fields in order. What a
record's fields are called is its layout, and how each is read its schema.
-/
namespace FlowScope.Json

/-- The fields of a record, in order, with their keys. A field may go by further keys when it is
read. -/
structure Layout (F : Type) where
  record : String
  fields : List F
  key : F → String
  aliases : F → List String := fun _ => []

/-- How the fields of a record are read. `empty` is the value of a field that is left out; a field
may be such that an object, or an array, must not leave it out. -/
structure Schema (F : Type) (V : F → Type) extends Layout F where
  read : (f : F) → Decoder (V f)
  empty : (f : F) → V f
  neededInObject : F → Bool := fun _ => false
  neededInArray : F → Bool := neededInObject

/-- An object with the fields that have a value to be written. -/
def Layout.write {F : Type} (l : Layout F) (value? : F → Option Json) : Json :=
  object (l.fields.filterMap fun f => (value? f).map fun j => (l.key f, j))

def Layout.field? {F : Type} (l : Layout F) (key : String) : Option F :=
  l.fields.find? fun f => l.key f == key || (l.aliases f).contains key

namespace Schema

variable {F : Type} [DecidableEq F] {V : F → Type}

/-- The fields read so far. -/
abbrev Draft (V : F → Type) := (f : F) → Option (V f)

/-- A draft with one more field. -/
def put (d : Draft V) (f : F) (v : V f) : Draft V :=
  fun g => if h : g = f then some (h ▸ v) else d g

theorem put_self (d : Draft V) (f : F) (v : V f) : put d f v f = some v := by
  simp [put]

theorem put_of_ne (d : Draft V) {f g : F} (v : V f) (h : g ≠ f) : put d f v g = d g := by
  simp [put, h]

/-- Read the members of an object one after the other. Members with other keys are skipped. -/
def readMembers (s : Schema F V) (depth : Nat) :
    List (Quoted × Json) → Draft V → Except Error (Draft V)
  | [], d => .ok d
  | (.faulty read _, _) :: _, _ => .error (.fault read)
  | (.text key, value) :: rest, d =>
      match s.field? key with
      | none =>
          match value.skipFault? with
          | some f => .error (.fault f)
          | none => s.readMembers depth rest d
      | some f =>
          if (d f).isSome then .error (.mismatch (.duplicate (s.key f)))
          else
            match s.read f depth value with
            | .error e => .error e
            | .ok v => s.readMembers depth rest (put d f v)

/-- Read the values of an array as the fields in their order, from the field with number `n` on. -/
def readItems (s : Schema F V) (depth : Nat) (stop : Option Fault) :
    Nat → List F → List Json → Draft V → Except Error (Draft V)
  | _, [], [], d => (ended stop).map fun _ => d
  | _, [], _ :: _, _ => .error (.fault .trailingText)
  | n, f :: fs, j :: js, d =>
      match s.read f depth j with
      | .error e => .error e
      | .ok v => s.readItems depth stop (n + 1) fs js (put d f v)
  | n, f :: fs, [], d =>
      match stop with
      | some fault => .error (.fault fault)
      | none =>
          if s.neededInArray f then
            .error (.mismatch (.tooShort n s.record s.fields.length))
          else s.readItems depth stop (n + 1) fs [] d

/-- The value of every field of a record. -/
def readFields (s : Schema F V) : Decoder ((f : F) → V f)
  | depth, .obj members stop => do
      let depth ← inside depth
      let d ← s.readMembers depth members fun _ => none
      ended stop
      match s.fields.find? fun f => (d f).isNone && s.neededInObject f with
      | some f => .error (.mismatch (.missing (s.key f)))
      | none => return fun f => (d f).getD (s.empty f)
  | depth, .arr items stop => do
      let depth ← inside depth
      let d ← s.readItems depth stop 0 s.fields items fun _ => none
      return fun f => (d f).getD (s.empty f)
  | _, j => .error (wrongType ("struct " ++ s.record) j)

end Schema

end FlowScope.Json
