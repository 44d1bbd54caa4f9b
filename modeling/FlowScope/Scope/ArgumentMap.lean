import FlowScope.Argument.Json
import FlowScope.Token
/-!
The arguments that may be referred to, by the text of their tokens. Only arguments of nodes have an
entry; the fields inside them are found by way of the argument.
-/
namespace FlowScope

/-- Arguments by the text of their tokens, in the order of these texts. -/
structure ArgumentMap where
  entries : List (String × Argument) := []
deriving Repr, Inhabited

/-- Put an entry into its place; an entry with the same key gives way to it. -/
def insertEntry {α : Type} (key : String) (value : α) : List (String × α) → List (String × α)
  | [] => [(key, value)]
  | (k, v) :: rest =>
      if key = k then (key, value) :: rest
      else if key < k then (key, value) :: (k, v) :: rest
      else (k, v) :: insertEntry key value rest

def lookup? {α : Type} (key : String) : List (String × α) → Option α
  | [] => none
  | (k, v) :: rest => if key = k then some v else lookup? key rest

theorem lookup?_insertEntry_self {α : Type} (key : String) (value : α)
    (entries : List (String × α)) :
    lookup? key (insertEntry key value entries) = some value := by
  induction entries with
  | nil => simp [insertEntry, lookup?]
  | cons e rest ih =>
      obtain ⟨k, v⟩ := e
      by_cases h : key = k
      · simp [insertEntry, lookup?, h]
      · by_cases hlt : key < k
        · simp [insertEntry, lookup?, h, hlt]
        · simp [insertEntry, lookup?, h, hlt, ih]

theorem lookup?_insertEntry_of_ne {α : Type} {key other : String} (h : other ≠ key) (value : α)
    (entries : List (String × α)) :
    lookup? other (insertEntry key value entries) = lookup? other entries := by
  induction entries with
  | nil => simp [insertEntry, lookup?, h]
  | cons e rest ih =>
      obtain ⟨k, v⟩ := e
      by_cases hk : key = k
      · subst hk
        simp [insertEntry, lookup?, h]
      · by_cases hlt : key < k
        · simp [insertEntry, lookup?, hk, hlt, h]
        · simp [insertEntry, lookup?, hk, hlt, ih]

namespace ArgumentMap

def insert (m : ArgumentMap) (key : String) (a : Argument) : ArgumentMap :=
  ⟨insertEntry key a m.entries⟩

def get? (m : ArgumentMap) (key : String) : Option Argument := lookup? key m.entries

theorem get?_insert_self (m : ArgumentMap) (key : String) (a : Argument) :
    (m.insert key a).get? key = some a :=
  lookup?_insertEntry_self key a m.entries

theorem get?_insert_of_ne (m : ArgumentMap) {key other : String} (h : other ≠ key) (a : Argument) :
    (m.insert key a).get? other = m.get? other :=
  lookup?_insertEntry_of_ne h a m.entries

def contains (m : ArgumentMap) (key : String) : Bool := (m.get? key).isSome

def insertNode (m : ArgumentMap) (node : NodeId) (args : List Argument) : ArgumentMap :=
  args.foldl (fun m a => m.insert (Token.key node a.name) a) m

/-- The argument or the field inside an argument that a token names. -/
def resolve? (m : ArgumentMap) (token : String) : Option Argument :=
  match Token.parse? token with
  | none => none
  | some t => (m.get? t.root).bind (·.path? t.fields)

/-- The keys in their order. -/
def keys (m : ArgumentMap) : List String := m.entries.map (·.1)

def size (m : ArgumentMap) : Nat := m.entries.length

/-- The map with these entries, of which later ones count more. -/
def ofList (entries : List (String × Argument)) : ArgumentMap :=
  entries.foldl (fun m (key, a) => m.insert key a) {}

def read : Json.Decoder ArgumentMap := fun depth j =>
  (Json.readMap Argument.read depth j).map ofList

def toJson (m : ArgumentMap) : Json :=
  .object (m.entries.map fun (key, a) => (key, a.toJson))

end ArgumentMap

end FlowScope
